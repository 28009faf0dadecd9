import Mathlib
import SdpRelay.Number.Decimal
import SdpRelay.Proofs.NearestDoubles

namespace SdpRelay

/-!
# The shortest digits read back

The digits that a positive double is written with stand for a number that the
double covers, so that whatever rounds to the nearest double reads them back.
Seventeen digits suffice: the multiples of a power of ten of that size lie closer
together than the numbers that the double covers reach.
-/

/-- What a quotient is rounded to is one of the two natural numbers around it. -/
theorem roundedQuotient_cases
    (tie : Tie)
    (numerator denominator : Nat) :
    roundedQuotient tie numerator denominator = numerator / denominator ∨
      roundedQuotient tie numerator denominator =
        numerator / denominator + 1 := by
  unfold roundedQuotient
  cases tie <;> simp only <;> split_ifs <;> omega

namespace Decimal

/-- The number that a decimal stands for. -/
def value (d : Decimal) : ℚ :=
  d.digits * (10 : ℚ) ^ d.exponent

/-- Trailing zeros do not count. -/
theorem value_stripped (d : Decimal) :
    d.stripped.value = d.value := by
  fun_induction stripped d with
  | case1 d trailing inductionHypothesis =>
      rw [inductionHypothesis]
      have parts : d.digits = 10 * (d.digits / 10) := by omega
      have partsCast : (d.digits : ℚ) = 10 * (d.digits / 10 : Nat) := by
        exact_mod_cast parts
      unfold value
      rw [partsCast, zpow_add_one₀ (by norm_num)]
      ring
  | case2 d _ =>
      rfl

theorem digits_stripped_le (d : Decimal) :
    d.stripped.digits ≤ d.digits := by
  fun_induction stripped d with
  | case1 d _ inductionHypothesis =>
      exact inductionHypothesis.trans (Nat.div_le_self _ _)
  | case2 d _ =>
      exact le_rfl

/-- A positive number lies between the powers of ten that its number of digits tells. -/
theorem digitCount_spec
    {n : Nat}
    (positive : 0 < n) :
    ∃ places,
      digitCount n = places + 1 ∧
        10 ^ places ≤ n ∧ n < 10 ^ (places + 1) := by
  have countPositive : 0 < digitCount n := Nat.length_toDigits_pos
  obtain ⟨places, count⟩ := Nat.exists_eq_succ_of_ne_zero countPositive.ne'
  have atMost (k : Nat) (kPositive : 0 < k) :
      digitCount n ≤ k ↔ n < 10 ^ k :=
    Nat.length_toDigits_le_iff (by norm_num) kPositive
  refine ⟨places, count, ?_, (atMost _ places.succ_pos).mp count.le⟩
  cases places with
  | zero =>
      exact positive
  | succ places =>
      rw [← not_lt, ← atMost _ places.succ_pos]
      omega

/-- The leading digit of a quotient stands at its power of ten. -/
theorem leadingExponent_spec
    {numerator denominator : Nat}
    (numeratorPositive : 0 < numerator)
    (denominatorPositive : 0 < denominator) :
    (10 : ℚ) ^ leadingExponent numerator denominator ≤
        (numerator : ℚ) / denominator ∧
      (numerator : ℚ) / denominator <
        (10 : ℚ) ^ (leadingExponent numerator denominator + 1) := by
  have numeratorCast : (0 : ℚ) < numerator := by
    exact_mod_cast numeratorPositive
  have denominatorCast : (0 : ℚ) < denominator := by
    exact_mod_cast denominatorPositive
  unfold leadingExponent
  split_ifs with whole
  · obtain ⟨places, count, low, high⟩ :=
      digitCount_spec (Nat.div_pos whole denominatorPositive)
    rw [Nat.le_div_iff_mul_le denominatorPositive] at low
    rw [Nat.div_lt_iff_lt_mul denominatorPositive] at high
    rw [count, Nat.cast_succ, add_sub_cancel_right, zpow_add_one₀ (by norm_num),
      zpow_natCast, le_div_iff₀ denominatorCast, div_lt_iff₀ denominatorCast]
    constructor
    · exact_mod_cast low
    · exact_mod_cast high
  · obtain ⟨places, count, low, high⟩ :=
      digitCount_spec (Nat.div_pos (Nat.not_le.mp whole).le numeratorPositive)
    rw [Nat.le_div_iff_mul_le numeratorPositive] at low
    rw [Nat.div_lt_iff_lt_mul numeratorPositive] at high
    simp only [count, Nat.add_sub_cancel, Nat.pow_eq]
    have lowCast : (10 : ℚ) ^ places * numerator ≤ denominator := by
      exact_mod_cast low
    have highCast : (denominator : ℚ) < 10 ^ places * 10 * numerator := by
      exact_mod_cast high
    have power : (0 : ℚ) < 10 ^ places := by positivity
    split_ifs with exact
    · have exactCast : (numerator : ℚ) * 10 ^ places = denominator := by
        exact_mod_cast exact
      have lead : 1 - ((places + 1 : Nat) : Int) = -(places : Int) := by omega
      have quotient :
          (numerator : ℚ) / denominator = (10 ^ places)⁻¹ := by
        rw [← exactCast]
        field_simp
      rw [lead, zpow_add_one₀ (by norm_num), zpow_neg, zpow_natCast, quotient]
      constructor
      · exact le_rfl
      · have : (0 : ℚ) < (10 ^ places)⁻¹ := inv_pos.mpr power
        linarith
    · have strict : (10 : ℚ) ^ places * numerator < denominator := by
        refine lt_of_le_of_ne lowCast ?_
        rw [mul_comm]
        exact_mod_cast exact
      have lead : -((places + 1 : Nat) : Int) + 1 = -(places : Int) := by omega
      rw [lead, zpow_neg, zpow_neg, zpow_natCast, zpow_natCast, pow_succ,
        inv_le_iff_one_le_mul₀ (by positivity), div_lt_iff₀ denominatorCast,
        lt_inv_mul_iff₀ power, div_mul_eq_mul_div,
        one_le_div denominatorCast]
      constructor
      · linarith
      · exact strict

/-- A decimal and a binary number compare as the quotients that stand for them. -/
theorem scaled_le_iff
    (digits quarters : Nat)
    (exponent place : Int) :
    (quarters * ((powerRatio 2 exponent).1 * (powerRatio 10 place).2) ≤
        digits * ((powerRatio 2 exponent).2 * (powerRatio 10 place).1) ↔
      (quarters : ℚ) * 2 ^ exponent ≤ digits * 10 ^ place) ∧
    (digits * ((powerRatio 2 exponent).2 * (powerRatio 10 place).1) ≤
        quarters * ((powerRatio 2 exponent).1 * (powerRatio 10 place).2) ↔
      (digits : ℚ) * 10 ^ place ≤ quarters * 2 ^ exponent) := by
  have tenPositive : 0 < 10 := by norm_num
  have downPositive :
      (0 : ℚ) < (powerRatio 2 exponent).2 * (powerRatio 10 place).2 := by
    exact_mod_cast
      Nat.mul_pos (powerRatio_pos two_pos exponent).2
        (powerRatio_pos tenPositive place).2
  have binary :
      ((quarters *
          ((powerRatio 2 exponent).1 * (powerRatio 10 place).2) : Nat) : ℚ) =
        quarters * 2 ^ exponent *
          ((powerRatio 2 exponent).2 * (powerRatio 10 place).2) := by
    push_cast
    rw [powerRatio_fst two_pos]
    push_cast
    ring
  have decimal :
      ((digits *
          ((powerRatio 2 exponent).2 * (powerRatio 10 place).1) : Nat) : ℚ) =
        digits * 10 ^ place *
          ((powerRatio 2 exponent).2 * (powerRatio 10 place).2) := by
    push_cast
    rw [powerRatio_fst tenPositive]
    push_cast
    ring
  rw [← Nat.cast_le (α := ℚ), ← Nat.cast_le (α := ℚ), binary, decimal]
  exact
    ⟨mul_le_mul_iff_left₀ downPositive, mul_le_mul_iff_left₀ downPositive⟩

section Search

variable
  (tie : Tie)
  (mantissa low high : Nat)
  (exponent place : Int)

/-- A quarter of the last place and the power of ten, over one denominator. -/
def steps : Nat × Nat :=
  ((powerRatio 2 (exponent - 2)).1 * (powerRatio 10 place).2,
    (powerRatio 2 (exponent - 2)).2 * (powerRatio 10 place).1)

/-- A multiple of the power of ten passes the check of the search. -/
def readsBack (candidate : Nat) : Bool :=
  if mantissa % 2 = 0 then
    decide (low * (steps exponent place).1 ≤
        candidate * (steps exponent place).2) &&
      decide (candidate * (steps exponent place).2 ≤
        high * (steps exponent place).1)
  else
    decide (low * (steps exponent place).1 <
        candidate * (steps exponent place).2) &&
      decide (candidate * (steps exponent place).2 <
        high * (steps exponent place).1)

/-- The multiple of the power of ten below the double. -/
def multipleBelow : Nat :=
  4 * mantissa * (steps exponent place).1 / (steps exponent place).2

/-- The search takes the nearer of two multiples that pass, and else the one that does. -/
theorem readingBackAt_eq :
    readingBackAt tie mantissa low high exponent place =
      bif readsBack mantissa low high exponent place
          (multipleBelow mantissa exponent place) then
        bif readsBack mantissa low high exponent place
            (multipleBelow mantissa exponent place + 1) then
          some
            (roundedQuotient tie (4 * mantissa * (steps exponent place).1)
              (steps exponent place).2)
        else some (multipleBelow mantissa exponent place)
      else
        bif readsBack mantissa low high exponent place
            (multipleBelow mantissa exponent place + 1) then
          some (multipleBelow mantissa exponent place + 1)
        else none := by
  unfold readingBackAt readsBack multipleBelow steps
  generalize powerRatio 2 (exponent - 2) = units
  generalize powerRatio 10 place = grids
  obtain ⟨unitUp, unitDown⟩ := units
  obtain ⟨gridUp, gridDown⟩ := grids
  dsimp only
  split <;> simp only [*, cond_true, cond_false]

/-- What the search finds has passed its check. -/
theorem readsBack_of_found
    {digits : Nat}
    (found :
      readingBackAt tie mantissa low high exponent place = some digits) :
    readsBack mantissa low high exponent place digits = true := by
  rw [readingBackAt_eq] at found
  generalize isBelow : multipleBelow mantissa exponent place = below at found
  have isNearest := roundedQuotient_cases tie
    (4 * mantissa * (steps exponent place).1) (steps exponent place).2
  generalize
    roundedQuotient tie (4 * mantissa * (steps exponent place).1)
      (steps exponent place).2 = nearest at found isNearest
  change nearest = multipleBelow mantissa exponent place ∨
    nearest = multipleBelow mantissa exponent place + 1 at isNearest
  rw [isBelow] at isNearest
  generalize readsBack mantissa low high exponent place = check at found ⊢
  cases belowPasses : check below <;> cases abovePasses : check (below + 1) <;>
    simp only [belowPasses, abovePasses, cond_true, cond_false,
      Option.some.injEq, reduceCtorEq] at found
  · rw [← found, abovePasses]
  · rw [← found, belowPasses]
  · rw [← found]
    rcases isNearest with same | same
    · rw [same, belowPasses]
    · rw [same, abovePasses]

/-- The search finds something if one of the two multiples around the double passes. -/
theorem found_of_readsBack
    (passes :
      readsBack mantissa low high exponent place
          (multipleBelow mantissa exponent place) = true ∨
        readsBack mantissa low high exponent place
          (multipleBelow mantissa exponent place + 1) = true) :
    readingBackAt tie mantissa low high exponent place ≠ none := by
  rw [readingBackAt_eq]
  rcases passes with below | above
  · rw [below, cond_true]
    cases readsBack mantissa low high exponent place
      (multipleBelow mantissa exponent place + 1) <;>
      exact Option.some_ne_none _
  · rw [above, cond_true, cond_true]
    cases readsBack mantissa low high exponent place
      (multipleBelow mantissa exponent place) <;>
      exact Option.some_ne_none _

end Search

section Reading

open Double

variable
  {mantissa : Nat}
  {exponent place : Int}

/-- The check of a multiple is that the double covers it. -/
theorem readsBack_iff
    (canonical : Canonical mantissa exponent)
    (candidate : Nat) :
    readsBack mantissa (4 * mantissa - quartersBelow mantissa exponent)
        (4 * mantissa + 2) exponent place candidate = true ↔
      Covers mantissa exponent (candidate * (10 : ℚ) ^ place) := by
  have lowIff :=
    scaled_le_iff candidate (4 * mantissa - quartersBelow mantissa exponent)
      (exponent - 2) place
  have highIff :=
    scaled_le_iff candidate (4 * mantissa + 2) (exponent - 2) place
  have lowCast :
      ((4 * mantissa - quartersBelow mantissa exponent : Nat) : ℚ) =
        4 * mantissa - quartersBelow mantissa exponent := by
    have quarters := quartersBelow_le mantissa exponent
    have positive := canonical.positive
    rw [Nat.cast_sub (by omega), Nat.cast_mul, Nat.cast_ofNat]
  have highCast : ((4 * mantissa + 2 : Nat) : ℚ) = 4 * mantissa + 2 := by
    rw [Nat.cast_add, Nat.cast_mul, Nat.cast_ofNat, Nat.cast_ofNat]
  unfold Covers Between readsBack steps
  rw [← lowCast, ← highCast]
  split_ifs with even
  · simp only [Bool.and_eq_true, decide_eq_true_eq, even, true_or, and_true]
    rw [lowIff.1, highIff.2]
  · simp only [Bool.and_eq_true, decide_eq_true_eq, even, false_or]
    rw [← not_le, ← not_le, lowIff.2, highIff.1, not_le, not_le]
    constructor
    · rintro ⟨above, below⟩
      exact ⟨above.le, below.le, above, below⟩
    · rintro ⟨_, _, above, below⟩
      exact ⟨above, below⟩

/-- The double lies between the multiple below it and the next one. -/
theorem multipleBelow_spec
    (mantissa : Nat)
    (exponent place : Int) :
    (multipleBelow mantissa exponent place : ℚ) * 10 ^ place ≤
        4 * mantissa * 2 ^ (exponent - 2) ∧
      4 * mantissa * 2 ^ (exponent - 2) <
        ((multipleBelow mantissa exponent place : ℚ) + 1) * 10 ^ place := by
  have gridPositive : 0 < (steps exponent place).2 :=
    Nat.mul_pos (powerRatio_pos two_pos _).2
      (powerRatio_pos (by norm_num) _).1
  have quartersCast : ((4 * mantissa : Nat) : ℚ) = 4 * mantissa := by
    rw [Nat.cast_mul, Nat.cast_ofNat]
  have lowIff :=
    scaled_le_iff (multipleBelow mantissa exponent place) (4 * mantissa)
      (exponent - 2) place
  have highIff :=
    scaled_le_iff (multipleBelow mantissa exponent place + 1) (4 * mantissa)
      (exponent - 2) place
  rw [quartersCast] at lowIff highIff
  rw [Nat.cast_succ] at highIff
  refine ⟨lowIff.2.mp (Nat.div_mul_le_self _ _), ?_⟩
  rw [← not_le, ← highIff.2, not_le]
  exact Nat.lt_mul_of_div_lt (Nat.lt_succ_self _) gridPositive

/-- One of two multiples of a power of ten that is small beside a double is covered by it. -/
theorem found_of_small_place
    (tie : Tie)
    (canonical : Canonical mantissa exponent)
    (small :
      (10 : ℚ) ^ place * 10 ^ 16 ≤ 4 * mantissa * 2 ^ (exponent - 2)) :
    readingBackAt tie mantissa
        (4 * mantissa - quartersBelow mantissa exponent) (4 * mantissa + 2)
        exponent place ≠
      none := by
  apply found_of_readsBack
  rw [readsBack_iff canonical, readsBack_iff canonical]
  obtain ⟨below, above⟩ := multipleBelow_spec mantissa exponent place
  rw [Nat.cast_succ]
  generalize (multipleBelow mantissa exponent place : ℚ) = multiple at below above ⊢
  have unitPositive : (0 : ℚ) < 2 ^ (exponent - 2) := zpow_pos two_pos _
  unfold Covers Between
  generalize (2 : ℚ) ^ (exponent - 2) = unit at *
  generalize (10 : ℚ) ^ place = step at *
  -- The multiples lie closer together than the numbers that are covered reach.
  have close :
      step < (quartersBelow mantissa exponent + 2) * unit := by
    unfold quartersBelow
    split_ifs with power
    · have mantissaCast : (mantissa : ℚ) = 2 ^ 52 := by
        exact_mod_cast power.1
      rw [mantissaCast] at small
      push_cast
      linarith
    · have mantissaCast : (mantissa : ℚ) + 1 ≤ 2 ^ 53 := by
        exact_mod_cast canonical.small
      have bounded : mantissa * unit ≤ (2 ^ 53 - 1) * unit :=
        mul_le_mul_of_nonneg_right (by linarith) unitPositive.le
      push_cast
      linarith
  have nonnegative : 0 ≤ quartersBelow mantissa exponent * unit := by
    positivity
  by_cases near :
      (4 * mantissa - quartersBelow mantissa exponent) * unit <
        multiple * step
  · left
    have under : multiple * step < (4 * mantissa + 2) * unit := by
      linarith
    exact ⟨near.le, under.le, .inr ⟨near, under⟩⟩
  · right
    rw [not_lt] at near
    have beyond :
        (4 * mantissa - quartersBelow mantissa exponent) * unit <
          (multiple + 1) * step := by
      linarith
    have under : (multiple + 1) * step < (4 * mantissa + 2) * unit := by
      linarith
    exact ⟨beyond.le, under.le, .inr ⟨beyond, under⟩⟩

/-- A positive double in numerator and denominator. -/
theorem dyadic_quotient
    (mantissa : Nat)
    (exponent : Int) :
    ((mantissa * (powerRatio 2 exponent).1 : Nat) : ℚ) /
        (powerRatio 2 exponent).2 =
      mantissa * (2 : ℚ) ^ exponent := by
  have downNonzero : ((powerRatio 2 exponent).2 : ℚ) ≠ 0 := by
    exact_mod_cast (powerRatio_pos two_pos exponent).2.ne'
  rw [Nat.cast_mul, powerRatio_fst two_pos, ← mul_assoc,
    mul_div_cancel_right₀ _ downNonzero]
  norm_cast

/-- What a double covers is less than twice as large as the double. -/
theorem lt_double_of_covers
    (canonical : Canonical mantissa exponent)
    {x : ℚ}
    (covers : Covers mantissa exponent x) :
    x < 2 * (mantissa * (2 : ℚ) ^ exponent) := by
  have powerPositive : (0 : ℚ) < 2 ^ exponent := zpow_pos two_pos _
  have mantissaCast : (1 : ℚ) ≤ mantissa := by
    exact_mod_cast canonical.positive
  have high := covers.2.1
  rw [two_zpow_sub_two] at high
  have least : (2 : ℚ) ^ exponent ≤ mantissa * 2 ^ exponent :=
    le_mul_of_one_le_left powerPositive.le mantissaCast
  linarith

/-- A covered decimal has few digits if it starts near the first digit of the double. -/
theorem digits_lt_of_covers
    (canonical : Canonical mantissa exponent)
    {lead : Int}
    {count digits : Nat}
    (below : mantissa * (2 : ℚ) ^ exponent < 10 ^ (lead + 1))
    (covers :
      Covers mantissa exponent (digits * (10 : ℚ) ^ (lead - count))) :
    digits < 2 * 10 ^ (count + 1) := by
  have small := lt_double_of_covers canonical covers
  have powerPositive : (0 : ℚ) < 10 ^ (lead - count) :=
    zpow_pos (by norm_num) _
  have places : lead + 1 = ((count + 1 : Nat) : Int) + (lead - count) := by
    omega
  rw [places, zpow_add₀ (by norm_num), zpow_natCast] at below
  have scaled :
      (digits : ℚ) * 10 ^ (lead - count) <
        2 * 10 ^ (count + 1) * 10 ^ (lead - count) := by
    linarith
  exact_mod_cast lt_of_mul_lt_mul_right scaled powerPositive.le

/-- The power of ten at which the first digit of a double stands. -/
def lead
    (mantissa : Nat)
    (exponent : Int) :
    Int :=
  leadingExponent (mantissa * (powerRatio 2 exponent).1)
    (powerRatio 2 exponent).2

/-- What the search finds with a number of digits behind the first one. -/
def search
    (tie : Tie)
    (mantissa : Nat)
    (exponent : Int)
    (count : Nat) :
    Option Nat :=
  readingBackAt tie mantissa
    (4 * mantissa - quartersBelow mantissa exponent) (4 * mantissa + 2)
    exponent (lead mantissa exponent - count)

/-- The shortest digits are the first that are found. -/
theorem shortest_eq
    (tie : Tie)
    (mantissa : Nat)
    (exponent : Int) :
    shortest tie mantissa exponent =
      ((List.range 17).findSome? fun count =>
          (search tie mantissa exponent count).map fun digits =>
            {
              digits := digits
              exponent := lead mantissa exponent - count
            }).elim
        (significant 17 (mantissa * (powerRatio 2 exponent).1)
          (powerRatio 2 exponent).2).stripped
        stripped := by
  unfold shortest search lead quartersBelow
  generalize powerRatio 2 exponent = units
  obtain ⟨unitUp, unitDown⟩ := units
  dsimp only
  split
  · rename_i decimal found
    simp only [Nat.pow_eq] at found
    rw [found]
    rfl
  · rename_i found
    simp only [Nat.pow_eq] at found
    rw [found]
    rfl

/--
The double covers the number that its shortest digits stand for, and there are at
most eighteen of these digits.
-/
theorem shortest_spec
    (tie : Tie)
    (canonical : Canonical mantissa exponent) :
    Covers mantissa exponent (shortest tie mantissa exponent).value ∧
      (shortest tie mantissa exponent).digits < 10 ^ 18 := by
  obtain ⟨leadLow, leadHigh⟩ :=
    leadingExponent_spec
      (Nat.mul_pos canonical.positive (powerRatio_pos two_pos exponent).1)
      (powerRatio_pos two_pos exponent).2
  rw [dyadic_quotient] at leadLow leadHigh
  change (10 : ℚ) ^ lead mantissa exponent ≤ _ at leadLow
  change _ < (10 : ℚ) ^ (lead mantissa exponent + 1) at leadHigh
  have covers
      {count digits : Nat}
      (found : search tie mantissa exponent count = some digits) :
      Covers mantissa exponent
        (digits * (10 : ℚ) ^ (lead mantissa exponent - count)) :=
    (readsBack_iff canonical digits).mp
      (readsBack_of_found _ _ _ _ _ _ found)
  have few
      {count digits : Nat}
      (inRange : count < 17)
      (found : search tie mantissa exponent count = some digits) :
      digits < 10 ^ 18 := by
    have bound := digits_lt_of_covers canonical leadHigh (covers found)
    have most : 10 ^ (count + 1) ≤ 10 ^ 17 :=
      Nat.pow_le_pow_right (by norm_num) (by omega)
    omega
  have someFound : search tie mantissa exponent 16 ≠ none := by
    apply found_of_small_place tie canonical
    have tenth :
        (10 : ℚ) ^ (lead mantissa exponent - (16 : Nat)) * 10 ^ 16 =
          10 ^ lead mantissa exponent := by
      rw [zpow_sub₀ (by norm_num), zpow_natCast]
      exact div_mul_cancel₀ _ (by norm_num)
    rw [two_zpow_sub_two, tenth]
    linarith
  rw [shortest_eq]
  generalize result : List.findSome? _ (List.range 17) = found
  cases found with
  | some decimal =>
      obtain ⟨count, inRange, candidate⟩ :=
        List.exists_of_findSome?_eq_some result
      obtain ⟨digits, found, rfl⟩ := Option.map_eq_some_iff.mp candidate
      rw [Option.elim_some, value_stripped]
      exact
        ⟨covers found,
          (digits_stripped_le _).trans_lt
            (few (List.mem_range.mp inRange) found)⟩
  | none =>
      have nothing :=
        List.findSome?_eq_none_iff.mp result 16 (by simp)
      exact absurd (Option.map_eq_none_iff.mp nothing) someFound

end Reading

end Decimal

end SdpRelay
