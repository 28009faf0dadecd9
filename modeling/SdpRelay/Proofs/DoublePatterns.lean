import Mathlib
import SdpRelay.Proofs.DoubleOrder
import SdpRelay.Proofs.NearestDoubles

namespace SdpRelay

/-!
# The bit patterns of the doubles

A double is finite exactly if its exponent field is not full.  A finite one is put
together again from its sign, its mantissa and its exponent: without the sign its
pattern is the exponent field and the mantissa as one number.
-/

namespace Double

open Float.Model (Format UnpackedFloat)
open Float.Model.UnpackedFloat (unpackExponent unpackMantissa)

section Fields

variable {x : Float}

/-- The bits of a double that hold its exponent. -/
def exponentField (x : Float) : Nat :=
  x.toBits.toNat / 2 ^ 52 % 2048

/-- The bits of a double that hold its mantissa, without the leading digit. -/
def fractionField (x : Float) : Nat :=
  x.toBits.toNat % 2 ^ 52

/-- All bits of a double. -/
def pattern (x : Float) : Pattern :=
  x.toBits.toBitVec

theorem toNat_unpackExponent (x : Float) :
    (unpackExponent (pattern x)).toNat = exponentField x := by
  rw [UnpackedFloat.unpackExponent_def, BitVec.extractLsb'_toNat,
    Nat.shiftRight_eq_div_pow]
  rfl

theorem toNat_unpackMantissa (x : Float) :
    (unpackMantissa (pattern x)).toNat = fractionField x := by
  rw [UnpackedFloat.unpackMantissa_def, BitVec.extractLsb'_toNat,
    Nat.shiftRight_eq_div_pow, Nat.pow_zero, Nat.div_one]
  rfl

/-- A double is finite exactly if its exponent field is not full. -/
theorem isFinite_iff :
    x.isFinite = true ↔ exponentField x ≠ 2047 := by
  have fullVector :
      unpackExponent (pattern x) =
          -BitVec.ofNat Format.binary64.exponentBits 1 ↔
        exponentField x = 2047 := by
    rw [← toNat_unpackExponent, ← BitVec.toNat_inj]
    rfl
  have unpacked : parts x = UnpackedFloat.unpack .binary64 (pattern x) := rfl
  change (parts x).isFinite = true ↔ _
  rw [unpacked, UnpackedFloat.unpack, Ne, ← not_congr fullVector]
  dsimp only
  split_ifs with full
  · exact iff_of_false nofun (not_not.mpr full)
  · exact iff_of_false nofun (not_not.mpr full)
  · exact iff_of_true rfl full
  · exact iff_of_true rfl full
  · exact iff_of_true rfl full

/-- The negative of a finite double is finite. -/
theorem isFinite_neg
    (finite : x.isFinite = true) :
    (-x).isFinite = true := by
  have anySign
      (sign other : UnpackedFloat.Sign)
      (exponent : BitVec Format.binary64.exponentBits)
      (mantissa : BitVec Format.binary64.mantissaBitsWithoutImplicit) :
      unpackExponent
          (UnpackedFloat.packComponents .binary64 sign exponent mantissa) =
        unpackExponent
          (UnpackedFloat.packComponents .binary64 other exponent mantissa) := by
    rw [UnpackedFloat.unpackExponent_packComponents,
      UnpackedFloat.unpackExponent_packComponents]
  have sameField (number : UnpackedFloat) :
      unpackExponent (UnpackedFloat.pack .binary64 number.neg) =
        unpackExponent (UnpackedFloat.pack .binary64 number) := by
    cases number with
    | notANumber => rfl
    | infinity sign => exact anySign _ _ _ _
    | zero sign => exact anySign _ _ _ _
    | finite sign mantissa exponent positive =>
        unfold UnpackedFloat.neg UnpackedFloat.pack
        dsimp only
        split_ifs <;> exact anySign _ _ _ _
  have negated :
      pattern (-x) = UnpackedFloat.pack .binary64 (parts x).neg :=
    rfl
  have repacked : UnpackedFloat.pack .binary64 (parts x) = pattern x :=
    UnpackedFloat.pack_unpack_of_valid x.toModel.valid
  rw [isFinite_iff, ← toNat_unpackExponent, negated, sameField, repacked,
    toNat_unpackExponent]
  exact isFinite_iff.mp finite

/-- A number that is not finite has a full exponent field and nothing behind it. -/
theorem fields_of_not_isFinite
    (number : x.isNaN = false)
    (infinite : x.isFinite = false) :
    exponentField x = 2047 ∧ fractionField x = 0 := by
  change (parts x).isNaN = false at number
  change (parts x).isFinite = false at infinite
  cases isParts : parts x with
  | notANumber =>
      rw [isParts] at number
      cases number
  | zero sign =>
      rw [isParts] at infinite
      cases infinite
  | finite sign mantissa exponent positive =>
      rw [isParts] at infinite
      cases infinite
  | infinity sign =>
      obtain ⟨_, full, empty⟩ := Pattern.fields_of_infinity isParts
      have fullNat := congrArg BitVec.toNat full
      have emptyNat := congrArg BitVec.toNat empty
      have exponentNat := toNat_unpackExponent x
      have mantissaNat := toNat_unpackMantissa x
      exact ⟨exponentNat.symm.trans fullNat, mantissaNat.symm.trans emptyNat⟩

end Fields

/-- A finite double is its sign and its pattern put together. -/
theorem doubleShape_of_isFinite
    {x : Float}
    (finite : x.isFinite = true) :
    ∃ negative mantissa exponent,
      doubleShape x = .finite negative mantissa exponent ∧
        (mantissa = 0 ∧ exponent = -1074 ∨ Canonical mantissa exponent) ∧
        signedDouble negative ((exponent + 1074).toNat * 2 ^ 52 + mantissa) = x := by
  have notFull := isFinite_iff.mp finite
  unfold exponentField at notFull
  have small : x.toBits.toNat < 2 ^ 64 := x.toBits.toNat_lt
  have rebuilt
      {pattern : Nat}
      (isPattern : pattern = x.toBits.toNat % 2 ^ 63) :
      signedDouble (decide (Nat.pow 2 63 ≤ x.toBits.toNat)) pattern = x := by
    have magnitude : min pattern (2047 * Nat.pow 2 52) = pattern := by
      simp only [Nat.pow_eq]
      omega
    have allBits :
        (if decide (Nat.pow 2 63 ≤ x.toBits.toNat) = true then
            Nat.pow 2 63 + pattern
          else
            pattern) =
          x.toBits.toNat := by
      simp only [Nat.pow_eq, decide_eq_true_eq]
      split_ifs <;> omega
    unfold signedDouble
    simp only [magnitude, allBits]
    rw [UInt64.ofNat_toNat, Float.ofBits_toBits]
  unfold doubleShape
  simp only [Nat.pow_eq]
  rw [if_neg notFull]
  split_ifs with first
  · refine ⟨_, _, _, rfl, ?_, rebuilt ?_⟩
    · by_cases zero : x.toBits.toNat % 2 ^ 52 = 0
      · exact .inl ⟨zero, rfl⟩
      · exact
          .inr ⟨Nat.pos_of_ne_zero zero, by omega, le_rfl, .inr rfl, by omega⟩
    · omega
  · refine ⟨_, _, _, rfl, .inr ⟨?_, ?_, ?_, .inl ?_, ?_⟩, rebuilt ?_⟩ <;> omega

/-- A full exponent field with nothing behind it belongs to one of the two infinities. -/
theorem eq_infinite_of_fields
    {x : Float}
    (full : exponentField x = 2047)
    (empty : fractionField x = 0) :
    x = infiniteDouble ∨ x = -infiniteDouble := by
  unfold exponentField at full
  unfold fractionField at empty
  have small : x.toBits.toNat < 2 ^ 64 := x.toBits.toNat_lt
  have ofBits
      {bits : UInt64}
      (same : x.toBits.toNat = bits.toNat) :
      x = Float.ofBits bits := by
    rw [← UInt64.toNat_inj.mp same, Float.ofBits_toBits]
  have negated :
      -infiniteDouble = Float.ofBits 0xFFF0000000000000 := by
    apply Float.toBits_inj.mp
    decide +kernel
  rw [negated]
  rcases Nat.lt_or_ge x.toBits.toNat (2 ^ 63) with positive | negative
  · left
    apply ofBits
    change x.toBits.toNat = 0x7FF0000000000000
    omega
  · right
    apply ofBits
    change x.toBits.toNat = 0xFFF0000000000000
    omega

/-- A number that is not finite is one of the two infinities. -/
theorem eq_infinite_of_not_isFinite
    {x : Float}
    (number : x.isNaN = false)
    (infinite : x.isFinite = false) :
    x = infiniteDouble ∨ x = -infiniteDouble := by
  obtain ⟨full, empty⟩ := fields_of_not_isFinite number infinite
  exact eq_infinite_of_fields full empty

/-- What is no finite double has the shape of none. -/
theorem doubleShape_of_not_isFinite
    {x : Float}
    (infinite : x.isFinite = false) :
    doubleShape x = .undefined ∨
      ∃ negative,
        doubleShape x = .infinite negative ∧
          (x = infiniteDouble ∨ x = -infiniteDouble) := by
  have full : exponentField x = 2047 := by
    by_contra notFull
    rw [isFinite_iff.mpr notFull] at infinite
    cases infinite
  have isFull : x.toBits.toNat / Nat.pow 2 52 % 2048 = 2047 := full
  unfold doubleShape
  simp only [isFull, ↓reduceIte]
  by_cases empty : x.toBits.toNat % Nat.pow 2 52 = 0
  · rw [if_pos empty]
    exact .inr ⟨_, rfl, eq_infinite_of_fields full empty⟩
  · rw [if_neg empty]
    exact .inl rfl

/-- Every finite double lies between the infinities. -/
theorem infinite_lt
    {x : Float}
    (finite : x.isFinite = true) :
    x < infiniteDouble ∧ -infiniteDouble < x := by
  have positive : parts infiniteDouble = .infinity .positive := rfl
  have negative : parts (-infiniteDouble) = .infinity .negative := rfl
  change (parts x).isFinite = true at finite
  rw [lt_iff, lt_iff, positive, negative]
  cases isParts : parts x with
  | notANumber =>
      rw [isParts] at finite
      cases finite
  | infinity sign =>
      rw [isParts] at finite
      cases finite
  | zero sign =>
      exact ⟨rfl, rfl⟩
  | finite sign mantissa exponent mantissaPositive =>
      exact ⟨rfl, rfl⟩

/-- The infinities are beyond every finite double. -/
theorem infinite_bounds
    {x : Float}
    (finite : x.isFinite = true) :
    x ≤ infiniteDouble ∧ -infiniteDouble ≤ x :=
  ⟨le_of_lt (infinite_lt finite).1, le_of_lt (infinite_lt finite).2⟩

/-- The mantissa and the exponent of a finite double are at most those of the largest. -/
theorem parts_le_largest
    {x : Float}
    {sign : UnpackedFloat.Sign}
    {mantissa : Nat}
    {exponent : Int}
    {positive : 0 < mantissa}
    (isParts : parts x = .finite sign mantissa exponent positive) :
    mantissa < 2 ^ 53 ∧ exponent ≤ 971 := by
  have unpacked :
      UnpackedFloat.unpack .binary64 (pattern x) =
        .finite sign mantissa exponent positive :=
    isParts
  have short : (unpackMantissa (pattern x)).toNat < 2 ^ 52 :=
    (unpackMantissa (pattern x)).isLt
  have fieldLimit : (unpackExponent (pattern x)).toNat < 2048 :=
    (unpackExponent (pattern x)).isLt
  unfold UnpackedFloat.unpack at unpacked
  dsimp only at unpacked
  split_ifs at unpacked with isLast isZero isFirst isEmpty
  · rw [UnpackedFloat.finite.injEq] at unpacked
    obtain ⟨_, rfl, rfl⟩ := unpacked
    refine ⟨by omega, ?_⟩
    rw [isFirst]
    decide
  · rw [UnpackedFloat.finite.injEq] at unpacked
    obtain ⟨_, rfl, rfl⟩ := unpacked
    have notLast : (unpackExponent (pattern x)).toNat ≠ 2047 := by
      intro last
      exact isLast (BitVec.eq_of_toNat_eq last)
    have wide := Pattern.toNat_withImplicitBit (unpackMantissa (pattern x))
    constructor
    · change (1#1 ++ unpackMantissa (pattern x)).toNat < 2 ^ 53
      omega
    · change ((unpackExponent (pattern x)).toNat : Int) - 1075 ≤ 971
      omega

/-- No finite double is beyond the largest one or its negative. -/
theorem largest_bounds
    {x : Float}
    (finite : x.isFinite = true) :
    x ≤ largestDouble ∧ -largestDouble ≤ x := by
  have positive :
      parts largestDouble =
        .finite .positive (2 ^ 53 - 1) 971 (by decide) :=
    rfl
  have negative :
      parts (-largestDouble) =
        .finite .negative (2 ^ 53 - 1) 971 (by decide) :=
    rfl
  change (parts x).isFinite = true at finite
  rw [le_iff, le_iff, positive, negative]
  cases isParts : parts x with
  | notANumber =>
      rw [isParts] at finite
      cases finite
  | infinity sign =>
      rw [isParts] at finite
      cases finite
  | zero sign =>
      exact ⟨⟨.lt, rfl, by decide⟩, ⟨.lt, rfl, by decide⟩⟩
  | finite sign mantissa exponent mantissaPositive =>
      obtain ⟨small, low⟩ := parts_le_largest isParts
      have order :
          (compare exponent 971).then (compare mantissa (2 ^ 53 - 1)) ≠
            .gt := by
        rcases low.lt_or_eq with below | rfl
        · simp [compare_lt_iff_lt.mpr below]
        · rw [compare_eq_iff_eq.mpr rfl]
          have notAbove : ¬ 2 ^ 53 - 1 < mantissa := by omega
          simpa [Ordering.then, compare_gt_iff_gt] using notAbove
      have swapped :
          ((compare 971 exponent).then
            (compare (2 ^ 53 - 1) mantissa)).swap ≠
            .gt := by
        rcases low.lt_or_eq with below | rfl
        · simp [compare_gt_iff_gt.mpr below]
        · rw [compare_eq_iff_eq.mpr rfl]
          have notAbove : ¬ 2 ^ 53 - 1 < mantissa := by omega
          simpa [Ordering.then, compare_lt_iff_lt] using notAbove
      cases sign with
      | positive => exact ⟨⟨_, rfl, order⟩, ⟨.lt, rfl, by decide⟩⟩
      | negative => exact ⟨⟨.lt, rfl, by decide⟩, ⟨_, rfl, swapped⟩⟩

/-- A number that is not beyond a finite sentinel is finite. -/
theorem isFinite_of_not_beyondSentinel
    {sentinel x : Float}
    (finite : sentinel.isFinite = true)
    (number : x.isNaN = false)
    (notBeyond : beyondSentinel sentinel x = false) :
    x.isFinite = true := by
  by_contra infinite
  rw [Bool.not_eq_true] at infinite
  have beyond : beyondSentinel sentinel x = true := by
    unfold beyondSentinel
    rw [Bool.or_eq_true, decide_eq_true_eq, decide_eq_true_eq]
    rcases eq_infinite_of_not_isFinite number infinite with rfl | rfl
    · exact .inl (infinite_bounds finite).1
    · exact .inr (infinite_bounds (isFinite_neg finite)).2
  rw [beyond] at notBeyond
  cases notBeyond

end Double

end SdpRelay
