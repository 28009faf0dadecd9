import Mathlib
import SdpRelay.Number.Binary64

namespace SdpRelay

/-!
# The order of the doubles

Doubles compare by what they unpack to.  The comparison is undefined exactly if
one of the two is not a number, and otherwise it turns around with its operands;
all laws of `<` and `≤` that are needed of doubles follow from these two facts.

Equal positive doubles have the same bits.  Zeros are the exception: there are
two of them, and they compare as equal.
-/

namespace Double

open Float.Model (Format UnpackedFloat)
open Float.Model.UnpackedFloat (Sign unpackSign unpackExponent unpackMantissa)

/-- What a double unpacks to. -/
def parts (x : Float) : UnpackedFloat :=
  x.toModel.unpack

/-- A comparison turns around with its operands. -/
theorem compare_swap (a b : UnpackedFloat) :
    b.compare a = (a.compare b).map Ordering.swap := by
  cases a with
  | notANumber =>
      cases b <;> rfl
  | infinity sign =>
      cases b with
      | infinity other => cases sign <;> cases other <;> rfl
      | _ => cases sign <;> rfl
  | zero sign =>
      cases b with
      | infinity other => cases other <;> rfl
      | finite other mantissa exponent positive => cases other <;> rfl
      | _ => rfl
  | finite sign mantissa exponent positive =>
      cases b with
      | infinity other => cases other <;> rfl
      | finite other otherMantissa otherExponent otherPositive =>
          have turned :
              (compare otherExponent exponent).then
                  (compare otherMantissa mantissa) =
                ((compare exponent otherExponent).then
                  (compare mantissa otherMantissa)).swap := by
            rw [Ordering.swap_then, ← Std.OrientedOrd.eq_swap,
              ← Std.OrientedOrd.eq_swap]
          cases sign <;> cases other <;>
            simp [UnpackedFloat.compare, turned]
      | _ => cases sign <;> rfl

theorem isNaN_iff (a : UnpackedFloat) :
    a.isNaN = true ↔ a = .notANumber := by
  cases a with
  | notANumber => exact iff_of_true rfl rfl
  | _ => exact iff_of_false Bool.false_ne_true nofun

/-- A comparison is undefined exactly if one operand is not a number. -/
theorem compare_eq_none_iff (a b : UnpackedFloat) :
    a.compare b = none ↔ a.isNaN = true ∨ b.isNaN = true := by
  simp only [isNaN_iff]
  fun_cases UnpackedFloat.compare a b <;>
    simp_all

theorem lt_iff (a b : Float) :
    a < b ↔ (parts a).compare (parts b) = some .lt := by
  change decide (a.toModel < b.toModel) = true ↔ _
  rw [decide_eq_true_iff]
  change ((parts a).compare (parts b) == some .lt) = true ↔ _
  exact beq_iff_eq

theorem le_iff (a b : Float) :
    a ≤ b ↔ ∃ order ∈ (parts a).compare (parts b), order ≠ .gt := by
  change decide (a.toModel ≤ b.toModel) = true ↔ _
  rw [decide_eq_true_iff]
  change ((parts a).compare (parts b)).any (·.isLE) = true ↔ _
  rcases (parts a).compare (parts b) with _ | order
  · simp
  · cases order <;> simp

theorem beq_iff (a b : Float) :
    (a == b) = true ↔ (parts a).compare (parts b) = some .eq := by
  change ((parts a).compare (parts b) == some .eq) = true ↔ _
  exact beq_iff_eq

/-- Two numbers compare in one of three ways, which tells their order both ways round. -/
theorem compare_cases
    {a b : Float}
    (aNumber : a.isNaN = false)
    (bNumber : b.isNaN = false) :
    (a < b ∧ a ≤ b ∧ ¬ b < a ∧ ¬ b ≤ a) ∨
      (¬ a < b ∧ a ≤ b ∧ ¬ b < a ∧ b ≤ a) ∨
      (¬ a < b ∧ ¬ a ≤ b ∧ b < a ∧ b ≤ a) := by
  have defined : (parts a).compare (parts b) ≠ none := by
    rw [Ne, compare_eq_none_iff]
    change ¬ (a.isNaN = true ∨ b.isNaN = true)
    rw [aNumber, bNumber]
    decide
  obtain ⟨order, compared⟩ := Option.ne_none_iff_exists'.mp defined
  have turned := compare_swap (parts a) (parts b)
  simp only [lt_iff, le_iff, turned, compared]
  cases order <;> simp

/-- What is not a number compares with nothing. -/
theorem not_lt_of_isNaN
    {a : Float}
    (undefined : a.isNaN = true)
    (b : Float) :
    ¬ a < b := by
  rw [lt_iff, (compare_eq_none_iff (parts a) (parts b)).mpr (.inl undefined)]
  exact nofun

theorem isNaN_of_isFinite
    {a : Float}
    (finite : a.isFinite = true) :
    a.isNaN = false := by
  change (parts a).isFinite = true at finite
  change (parts a).isNaN = false
  cases isParts : parts a with
  | notANumber =>
      rw [isParts] at finite
      cases finite
  | _ => rfl

theorem lt_asymm
    {a b : Float}
    (below : a < b) :
    ¬ b < a := by
  rw [lt_iff] at below ⊢
  rw [compare_swap (parts a), below]
  simp

theorem le_of_lt
    {a b : Float}
    (below : a < b) :
    a ≤ b := by
  rw [lt_iff] at below
  exact (le_iff a b).mpr ⟨.lt, below, by decide⟩

theorem not_le_of_lt
    {a b : Float}
    (below : a < b) :
    ¬ b ≤ a := by
  rw [lt_iff] at below
  rw [le_iff, compare_swap (parts a), below]
  rintro ⟨order, isGreater, notGreater⟩
  exact notGreater (Option.some.inj isGreater).symm

/-- What compares as equal to a finite double other than zero has the same parts. -/
theorem parts_of_beq
    {a b : Float}
    {sign : Sign}
    {mantissa : Nat}
    {exponent : Int}
    {positive : 0 < mantissa}
    (isParts : parts b = .finite sign mantissa exponent positive)
    (equal : (a == b) = true) :
    parts a = parts b := by
  rw [beq_iff, isParts] at equal
  rw [isParts]
  cases hasParts : parts a with
  | finite other otherMantissa otherExponent otherPositive =>
      rw [hasParts] at equal
      have same :
          other = sign ∧
            (compare otherExponent exponent).then
                (compare otherMantissa mantissa) =
              .eq := by
        cases other <;> cases sign <;>
          simp_all [UnpackedFloat.compare]
      obtain ⟨rfl, same⟩ := same
      rw [Ordering.then_eq_eq, compare_eq_iff_eq, compare_eq_iff_eq] at same
      obtain ⟨rfl, rfl⟩ := same
      rfl
  | infinity other =>
      rw [hasParts] at equal
      cases other <;> cases sign <;> cases equal
  | _ =>
      rw [hasParts] at equal
      cases sign <;> cases equal

/-- The smaller of two doubles is the first only if it lies below the second. -/
theorem smallerDouble_eq
    {a b : Float}
    (finite : b.isFinite = true) :
    smallerDouble a b = if a < b then a else b := by
  unfold smallerDouble
  cases isNaN : a.isNaN with
  | true =>
      rw [if_neg (not_lt_of_isNaN isNaN b)]
      rfl
  | false =>
      rcases compare_cases isNaN (isNaN_of_isFinite finite) with
        ⟨below, _, _, notAbove⟩ | ⟨notBelow, _, _, above⟩ |
          ⟨notBelow, _, _, above⟩
      · simp [below, notAbove]
      · simp [notBelow, above]
      · simp [notBelow, above]

/-- A zero has magnitude zero. -/
theorem abs_of_zero
    {x : Float}
    {sign : Sign}
    (isZero : parts x = .zero sign) :
    x.abs = 0 := by
  change Float.ofModel (Float.Model.pack (parts x).abs) = _
  rw [isZero]
  rfl

/-- A number that is no zero is either positive or negative. -/
theorem pos_iff_not_neg
    {x : Float}
    (isNumber : x.isNaN = false)
    (nonzero : ∀ sign, parts x ≠ .zero sign) :
    (0 : Float) < x ↔ ¬ x < 0 := by
  rw [lt_iff, lt_iff]
  change
    (UnpackedFloat.zero .positive).compare (parts x) = some .lt ↔
      ¬ (parts x).compare (.zero .positive) = some .lt
  change (parts x).isNaN = false at isNumber
  cases isParts : parts x with
  | notANumber =>
      rw [isParts] at isNumber
      cases isNumber
  | zero sign =>
      exact absurd isParts (nonzero sign)
  | infinity sign =>
      cases sign <;> decide
  | finite sign mantissa exponent positive =>
      cases sign <;> simp [UnpackedFloat.compare]

/-- A positive double is infinite, or finite with a positive mantissa. -/
theorem parts_of_pos
    {a : Float}
    (positive : (0 : Float) < a) :
    parts a = .infinity .positive ∨
      ∃ mantissa exponent mantissaPositive,
        parts a = .finite .positive mantissa exponent mantissaPositive := by
  rw [lt_iff] at positive
  change (UnpackedFloat.zero .positive).compare (parts a) = _ at positive
  cases isParts : parts a with
  | notANumber =>
      rw [isParts] at positive
      cases positive
  | zero sign =>
      rw [isParts] at positive
      cases positive
  | infinity sign =>
      rw [isParts] at positive
      cases sign with
      | negative => cases positive
      | positive => exact .inl rfl
  | finite sign mantissa exponent mantissaPositive =>
      rw [isParts] at positive
      cases sign with
      | negative => cases positive
      | positive => exact .inr ⟨mantissa, exponent, mantissaPositive, rfl⟩

/-- A positive double below a finite one is finite. -/
theorem isFinite_of_lt
    {a b : Float}
    (positive : (0 : Float) < a)
    (below : a < b)
    (finite : b.isFinite = true) :
    a.isFinite = true := by
  change (parts a).isFinite = true
  rcases parts_of_pos positive with
    isInfinite | ⟨mantissa, exponent, mantissaPositive, isFinite⟩
  · rw [lt_iff, isInfinite] at below
    change (parts b).isFinite = true at finite
    cases isParts : parts b with
    | notANumber =>
        rw [isParts] at finite
        cases finite
    | infinity sign =>
        rw [isParts] at finite
        cases finite
    | zero sign =>
        rw [isParts] at below
        cases below
    | finite sign mantissa exponent mantissaPositive =>
        rw [isParts] at below
        cases below
  · rw [isFinite]
    rfl

/-- A bit pattern of a double. -/
abbrev Pattern := BitVec Format.binary64.numBits

namespace Pattern

/-- A pattern is put together from its three fields. -/
theorem packed_fields (bits : Pattern) :
    UnpackedFloat.packComponents .binary64
        (Sign.ofBitVec (unpackSign bits)) (unpackExponent bits)
        (unpackMantissa bits) =
      bits := by
  have signBits (sign : BitVec 1) : (Sign.ofBitVec sign).toBitVec = sign := by
    revert sign
    decide
  simp only [UnpackedFloat.packComponents, signBits, unpackSign,
    unpackExponent, unpackMantissa, BitVec.extractLsb]
  ext index inside
  grind

theorem eq_of_fields
    {first second : Pattern}
    (sameSign :
      Sign.ofBitVec (unpackSign first) = Sign.ofBitVec (unpackSign second))
    (sameExponent : unpackExponent first = unpackExponent second)
    (sameMantissa : unpackMantissa first = unpackMantissa second) :
    first = second := by
  rw [← packed_fields first, sameSign, sameExponent, sameMantissa,
    packed_fields]

theorem toNat_withImplicitBit (mantissa : BitVec 52) :
    (1#1 ++ mantissa).toNat = 2 ^ 52 + mantissa.toNat := by
  rw [BitVec.toNat_append, Nat.or_comm, Nat.shiftLeft_eq]
  change mantissa.toNat ||| 1 * 2 ^ 52 = _
  rw [Nat.one_mul, Nat.or_two_pow_eq_add_of_lt mantissa.isLt, Nat.add_comm]

theorem fields_of_infinity
    {bits : Pattern}
    {sign : Sign}
    (unpacked : UnpackedFloat.unpack .binary64 bits = .infinity sign) :
    Sign.ofBitVec (unpackSign bits) = sign ∧
      unpackExponent bits = -1#_ ∧
      unpackMantissa bits = 0#_ := by
  unfold UnpackedFloat.unpack at unpacked
  dsimp only at unpacked
  split_ifs at unpacked with isLast isZero
  cases unpacked
  exact ⟨rfl, isLast, isZero⟩

/-- The fields can be read off a finite number: its mantissa tells whether the implicit bit is set. -/
theorem fields_of_finite
    {bits : Pattern}
    {sign : Sign}
    {mantissa : Nat}
    {exponent : Int}
    {positive : 0 < mantissa}
    (unpacked :
      UnpackedFloat.unpack .binary64 bits =
        .finite sign mantissa exponent positive) :
    Sign.ofBitVec (unpackSign bits) = sign ∧
      (unpackExponent bits).toNat =
        (if mantissa < 2 ^ 52 then 0 else (exponent + 1075).toNat) ∧
      (unpackMantissa bits).toNat = mantissa % 2 ^ 52 := by
  have small : (unpackMantissa bits).toNat < 2 ^ 52 :=
    (unpackMantissa bits).isLt
  unfold UnpackedFloat.unpack at unpacked
  dsimp only at unpacked
  split_ifs at unpacked with _ _ isFirst isZero
  · cases unpacked
    refine ⟨rfl, ?_, (Nat.mod_eq_of_lt small).symm⟩
    rw [if_pos small, isFirst]
    rfl
  · rw [UnpackedFloat.finite.injEq] at unpacked
    obtain ⟨rfl, rfl, rfl⟩ := unpacked
    have wide := toNat_withImplicitBit (unpackMantissa bits)
    refine ⟨rfl, ?_, ?_⟩
    · rw [if_neg (by omega)]
      simp [Format.exponentBias]
    · rw [wide]
      omega

end Pattern

/-- Positive doubles with the same parts are the same. -/
theorem eq_of_parts
    {a b : Float}
    (positive : (0 : Float) < a)
    (same : parts a = parts b) :
    a = b := by
  have sameBits : a.toModel.toBits.toBitVec = b.toModel.toBits.toBitVec := by
    rcases parts_of_pos positive with
      isInfinite | ⟨mantissa, exponent, mantissaPositive, isFinite⟩
    · obtain ⟨aSign, aExponent, aMantissa⟩ :=
        Pattern.fields_of_infinity isInfinite
      obtain ⟨bSign, bExponent, bMantissa⟩ :=
        Pattern.fields_of_infinity (same.symm.trans isInfinite)
      exact
        Pattern.eq_of_fields (aSign.trans bSign.symm)
          (aExponent.trans bExponent.symm) (aMantissa.trans bMantissa.symm)
    · obtain ⟨aSign, aExponent, aMantissa⟩ :=
        Pattern.fields_of_finite isFinite
      obtain ⟨bSign, bExponent, bMantissa⟩ :=
        Pattern.fields_of_finite (same.symm.trans isFinite)
      exact
        Pattern.eq_of_fields (aSign.trans bSign.symm)
          (BitVec.eq_of_toNat_eq (aExponent.trans bExponent.symm))
          (BitVec.eq_of_toNat_eq (aMantissa.trans bMantissa.symm))
  obtain ⟨⟨aBits, _⟩⟩ := a
  obtain ⟨⟨bBits, _⟩⟩ := b
  obtain rfl : aBits = bBits := UInt64.eq_of_toBitVec_eq sameBits
  rfl

/-- A positive double that compares as equal to another one is that double. -/
theorem eq_of_beq
    {a b : Float}
    (positive : (0 : Float) < a)
    (equal : (a == b) = true) :
    a = b := by
  refine eq_of_parts positive ?_
  rw [beq_iff] at equal
  rcases parts_of_pos positive with
    isInfinite | ⟨mantissa, exponent, mantissaPositive, isFinite⟩
  · rw [isInfinite] at equal ⊢
    cases isParts : parts b with
    | infinity sign =>
        rw [isParts] at equal
        cases sign with
        | negative => cases equal
        | positive => rfl
    | _ =>
        rw [isParts] at equal
        cases equal
  · rw [isFinite] at equal ⊢
    cases isParts : parts b with
    | finite sign otherMantissa otherExponent otherPositive =>
        rw [isParts] at equal
        cases sign with
        | negative => cases equal
        | positive =>
            have same := Option.some.inj equal
            rw [Ordering.then_eq_eq, Nat.compare_eq_eq] at same
            obtain ⟨sameExponent, rfl⟩ := same
            obtain rfl := Std.LawfulEqOrd.eq_of_compare sameExponent
            rfl
    | infinity sign =>
        rw [isParts] at equal
        cases sign <;> cases equal
    | _ =>
        rw [isParts] at equal
        cases equal

end Double

end SdpRelay
