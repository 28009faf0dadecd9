import Mathlib
import SdpRelay.ProblemFile.Parser
import SdpRelay.Proofs.RefusedTexts

namespace SdpRelay

/-!
# Numbers as text

A number is spelled with digits, perhaps a point and digits behind it, and perhaps
a power of ten.  The reader of numbers takes every proper spelling, and the literal
that it yields has the value of the spelling: zeros in front and behind the point
do not count.
-/

namespace Reader

section Digits

/-- Digits followed by others count for as many places more. -/
theorem digitsValue_append (first second : List Char) :
    digitsValue (first ++ second) =
      10 ^ second.length * digitsValue first + digitsValue second := by
  change Nat.ofDigitChars 10 (first ++ second) 0 = _
  rw [Nat.ofDigitChars_append, Nat.ofDigitChars_eq_ofDigitChars_zero]
  rfl

theorem digitsValue_replicate_zero (count : Nat) :
    digitsValue (List.replicate count '0') = 0 := by
  change Nat.ofDigitChars 10 (List.replicate count '0') 0 = 0
  rw [Nat.ofDigitChars_replicate_zero, Nat.mul_zero]

theorem digitsValue_toDigits (n : Nat) :
    digitsValue (Nat.toDigits 10 n) = n :=
  Nat.ofDigitChars_ten_toDigits

/-- Zeros in front do not count. -/
theorem digitsValue_dropWhile_zero (digits : List Char) :
    digitsValue (digits.dropWhile (· == '0')) = digitsValue digits := by
  induction digits with
  | nil =>
      rfl
  | cons c digits inductionHypothesis =>
      by_cases zero : c = '0'
      · subst zero
        rw [List.dropWhile_cons_of_pos (by rfl), inductionHypothesis]
        rfl
      · rw [List.dropWhile_cons_of_neg (by simpa using zero)]

/-- Digits are what is left of them without the zeros at their end, and these zeros. -/
theorem withoutFinalZeros_spec (digits : List Char) :
    ∃ count,
      digits = withoutFinalZeros digits ++ List.replicate count '0' := by
  refine ⟨(digits.reverse.takeWhile (· == '0')).length, ?_⟩
  have zeros :
      digits.reverse.takeWhile (· == '0') =
        List.replicate (digits.reverse.takeWhile (· == '0')).length '0' := by
    apply List.eq_replicate_of_mem
    intro c member
    simpa using List.mem_takeWhile_imp member
  have parts :=
    List.takeWhile_append_dropWhile (p := (· == '0')) (l := digits.reverse)
  rw [zeros] at parts
  have reversed := congrArg List.reverse parts
  rw [List.reverse_append, List.reverse_replicate, List.reverse_reverse]
    at reversed
  exact reversed.symm

theorem digitsValue_cons
    (c : Char)
    (digits : List Char) :
    digitsValue (c :: digits) =
      10 ^ digits.length * (c.toNat - '0'.toNat) + digitsValue digits := by
  have single : digitsValue [c] = c.toNat - '0'.toNat := by
    simp [digitsValue]
  rw [← List.singleton_append, digitsValue_append, single]

/-- A digit stands for a number below ten, which is zero only for the zero. -/
theorem digit_bounds
    {c : Char}
    (isDigit : c.isDigit = true) :
    c.toNat - '0'.toNat < 10 ∧ (c ≠ '0' → 0 < c.toNat - '0'.toNat) := by
  have zeroCode : '0'.toNat = 48 := rfl
  simp only [Char.isDigit, Bool.and_eq_true, decide_eq_true_eq, UInt32.le_iff_toNat_le]
    at isDigit
  obtain ⟨low, high⟩ := isDigit
  change 48 ≤ c.toNat at low
  change c.toNat ≤ 57 at high
  refine ⟨by omega, ?_⟩
  intro notZero
  have different : c.toNat ≠ 48 := by
    intro same
    exact notZero (Char.toNat_inj.mp same)
  omega

/-- Digits stand for less than the power of ten of their number. -/
theorem digitsValue_lt
    {digits : List Char}
    (areDigits : ∀ c ∈ digits, c.isDigit = true) :
    digitsValue digits < 10 ^ digits.length := by
  induction digits with
  | nil =>
      exact Nat.one_pos
  | cons c digits inductionHypothesis =>
      have first := (digit_bounds (areDigits c List.mem_cons_self)).1
      have others :=
        inductionHypothesis fun other member =>
          areDigits other (List.mem_cons_of_mem _ member)
      have scaled :
          10 ^ digits.length * (c.toNat - '0'.toNat) ≤
            10 ^ digits.length * 9 :=
        Nat.mul_le_mul_left _ (by omega)
      rw [digitsValue_cons, List.length_cons, Nat.pow_succ]
      omega

/-- Digits of which no zero leads stand for no less than the power of ten of the first. -/
theorem le_digitsValue
    {first : Char}
    {others : List Char}
    (isDigit : first.isDigit = true)
    (notZero : first ≠ '0') :
    10 ^ others.length ≤ digitsValue (first :: others) := by
  have leading := (digit_bounds isDigit).2 notZero
  rw [digitsValue_cons]
  exact Nat.le_add_right_of_le (Nat.le_mul_of_pos_right _ leading)

end Digits

/-- The parts of a number as it is written, after its sign. -/
structure Spelling where
  whole : List Char
  fraction : Option (List Char)
  exponent : Option Int

namespace Spelling

/-- The places behind the point. -/
def places (spelling : Spelling) : List Char :=
  spelling.fraction.getD []

/-- The point and the places behind it. -/
def fractionText (spelling : Spelling) : List Char :=
  match spelling.fraction with
  | some places => '.' :: places
  | none => []

/-- The power of ten, which has a sign. -/
def exponentText (spelling : Spelling) : List Char :=
  match spelling.exponent with
  | some exponent => 'e' :: NumberLayout.exponentText true exponent
  | none => []

/-- The text of a spelling. -/
def text (spelling : Spelling) : List Char :=
  spelling.whole ++ (spelling.fractionText ++ spelling.exponentText)

/-- The number that is spelled. -/
def value (spelling : Spelling) : ℚ :=
  digitsValue (spelling.whole ++ spelling.places) *
    (10 : ℚ) ^ (spelling.exponent.getD 0 - spelling.places.length)

/-- There are digits before the point, of which no zero leads others, and behind a point. -/
structure Proper (spelling : Spelling) : Prop where
  nonempty : spelling.whole ≠ []
  wholeDigits : ∀ c ∈ spelling.whole, c.isDigit = true
  noLeadingZero : spelling.whole = ['0'] ∨ spelling.whole.head? ≠ some '0'
  fractionNonempty : spelling.fraction ≠ some []
  fractionDigits : ∀ c ∈ spelling.places, c.isDigit = true

/-- The literal that a spelling is read as. -/
def literal
    (spelling : Spelling)
    (negative : Bool) :
    DecimalLiteral :=
  let places := withoutFinalZeros spelling.places
  {
    negative := negative
    digits := (spelling.whole ++ places).dropWhile (· == '0')
    exponent := spelling.exponent.getD 0 - places.length
    whole := spelling.fraction.isNone && spelling.exponent.isNone
  }

end Spelling

/-- The number that a literal stands for, without its sign. -/
def DecimalLiteral.value (literal : DecimalLiteral) : ℚ :=
  digitsValue literal.digits * (10 : ℚ) ^ literal.exponent

namespace Spelling

variable {spelling : Spelling}

/-- The literal has the value of the spelling. -/
theorem value_literal
    (spelling : Spelling)
    (negative : Bool) :
    (spelling.literal negative).value = spelling.value := by
  obtain ⟨count, split⟩ := withoutFinalZeros_spec spelling.places
  unfold DecimalLiteral.value literal value
  simp only
  generalize withoutFinalZeros spelling.places = kept at split ⊢
  rw [digitsValue_dropWhile_zero, split, ← List.append_assoc,
    digitsValue_append (spelling.whole ++ kept), digitsValue_replicate_zero,
    List.length_append, List.length_replicate, Nat.add_zero]
  have exponents :
      spelling.exponent.getD 0 - (kept.length : Int) =
        (count : Int) +
          (spelling.exponent.getD 0 - ((kept.length + count : Nat) : Int)) := by
    omega
  rw [exponents, zpow_add₀ (by norm_num), zpow_natCast]
  push_cast
  ring

/-- The literal of a proper spelling has no zero in front, and no more digits than are written. -/
theorem Proper.literal_digits
    (proper : spelling.Proper)
    (negative : Bool) :
    (∀ c ∈ (spelling.literal negative).digits, c.isDigit = true) ∧
      (spelling.literal negative).digits.head? ≠ some '0' ∧
      (spelling.literal negative).digits.length ≤
        (spelling.whole ++ spelling.places).length := by
  obtain ⟨count, split⟩ := withoutFinalZeros_spec spelling.places
  have placesDigits := proper.fractionDigits
  unfold literal
  simp only
  generalize withoutFinalZeros spelling.places = kept at split ⊢
  rw [split] at placesDigits ⊢
  refine ⟨?_, ?_, ?_⟩
  · intro c member
    rcases List.mem_append.mp ((List.dropWhile_sublist _).subset member) with
      inWhole | inPlaces
    · exact proper.wholeDigits c inWhole
    · exact placesDigits c (List.mem_append_left _ inPlaces)
  · intro zero
    have stopped := List.head?_dropWhile_not (· == '0') (spelling.whole ++ kept)
    rw [zero] at stopped
    simp at stopped
  · have dropped :=
      List.length_dropWhile_le (· == '0') (spelling.whole ++ kept)
    simp only [List.length_append] at dropped ⊢
    omega

/-- The sign of a number in a file. -/
def signText (negative : Bool) : List Char :=
  if negative then ['-'] else []

theorem not_isDigit_of_ends
    {rest : List Char}
    (ends : Ends rest) :
    ∀ c ∈ rest.head?, c.isDigit = false ∧ c ≠ '.' ∧ c ≠ 'e' ∧ c ≠ 'E' := by
  intro c isHead
  rcases ends c isHead with rfl | rfl | rfl <;> decide

/-- A written power of ten is taken, and so is its absence. -/
theorem exponentPart_exponentText
    (atEnd : FileFault)
    (spelling : Spelling)
    {rest : List Char}
    (ends : Ends rest) :
    exponentPart atEnd (spelling.exponentText ++ rest) =
      .ok (spelling.exponent, rest) := by
  have stops := not_isDigit_of_ends ends
  have isMark : ('e' == 'e' || 'e' == 'E') = true := by
    decide
  unfold exponentPart exponentText
  cases spelling.exponent with
  | none =>
      have absent :
          ∀ c ∈ rest.head?, (c == 'e' || c == 'E') = false := by
        intro c isHead
        simp [stops c isHead]
      exact bind_of_ok (optionalMark_of_absent absent) _
  | some exponent =>
      have taken (sign : Char) (isSign : (sign == '+' || sign == '-') = true) :
          (optionalMark (fun c => c == '+' || c == '-') >>= fun sign =>
            someDigits atEnd >>= fun written =>
              let value := digitsValue written
              return some (if sign = some '-' then -(value : Int) else value))
              (sign :: (Nat.toDigits 10 exponent.natAbs ++ rest)) =
            .ok (some
              (if some sign = some '-' then
                  -(exponent.natAbs : Int)
                else
                  exponent.natAbs), rest) := by
        have signTaken :
            optionalMark (fun c => c == '+' || c == '-')
                (sign :: (Nat.toDigits 10 exponent.natAbs ++ rest)) =
              .ok (some sign, Nat.toDigits 10 exponent.natAbs ++ rest) :=
          optionalMark_cons isSign _
        rw [bind_of_ok signTaken,
          bind_of_ok
            (someDigits_append atEnd Nat.toDigits_ne_nil
              (fun c member =>
                Nat.isDigit_of_mem_toDigits (by norm_num) (by norm_num) member)
              fun c isHead => (stops c isHead).1),
          digitsValue_toDigits]
        rfl
      have markTaken (others : List Char) :
          optionalMark (fun c => c == 'e' || c == 'E') ('e' :: others) =
            .ok (some 'e', others) :=
        optionalMark_cons isMark _
      unfold NumberLayout.exponentText
      simp only [↓reduceIte]
      split_ifs with negative
      · have magnitude : -(exponent.natAbs : Int) = exponent := by
          omega
        rw [List.cons_append, List.cons_append, bind_of_ok (markTaken _)]
        exact (taken '-' rfl).trans (by rw [if_pos rfl, magnitude])
      · have magnitude : (exponent.natAbs : Int) = exponent := by
          omega
        rw [List.cons_append, List.cons_append, bind_of_ok (markTaken _)]
        exact (taken '+' rfl).trans (by rw [if_neg (by decide), magnitude])

/-- Neither a digit nor a point follows the places behind the point. -/
theorem head_exponentText
    (spelling : Spelling)
    {rest : List Char}
    (ends : Ends rest) :
    ∀ c ∈ (spelling.exponentText ++ rest).head?,
      c.isDigit = false ∧ c ≠ '.' := by
  have stops := not_isDigit_of_ends ends
  unfold exponentText
  cases spelling.exponent with
  | none =>
      intro c isHead
      exact ⟨(stops c isHead).1, (stops c isHead).2.1⟩
  | some exponent =>
      intro c isHead
      obtain rfl : 'e' = c := Option.some.inj isHead
      decide

/-- No digit follows the digits before the point. -/
theorem head_fractionText
    (spelling : Spelling)
    {rest : List Char}
    (ends : Ends rest) :
    ∀ c ∈ (spelling.fractionText ++ (spelling.exponentText ++ rest)).head?,
      c.isDigit = false := by
  have stops := head_exponentText spelling ends
  unfold fractionText
  cases spelling.fraction with
  | none =>
      intro c isHead
      exact (stops c isHead).1
  | some places =>
      intro c isHead
      obtain rfl : '.' = c := Option.some.inj isHead
      decide

theorem Proper.first
    (proper : spelling.Proper) :
    ∃ c others, spelling.whole = c :: others ∧ c.isDigit = true := by
  obtain ⟨c, others, whole⟩ := List.exists_cons_of_ne_nil proper.nonempty
  refine ⟨c, others, whole, proper.wholeDigits c ?_⟩
  rw [whole]
  exact List.mem_cons_self

/-- The sign is taken, or its absence is noticed. -/
theorem sign_taken
    (proper : spelling.Proper)
    (negative : Bool)
    (rest : List Char) :
    optionalMark (· == '-')
        (signText negative ++ (spelling.whole ++ rest)) =
      .ok (if negative then some '-' else none, spelling.whole ++ rest) := by
  cases negative with
  | true =>
      exact optionalMark_cons rfl _
  | false =>
      refine optionalMark_of_absent ?_
      obtain ⟨first, others, whole, isDigit⟩ := proper.first
      intro c isHead
      rw [whole] at isHead
      obtain rfl : first = c := Option.some.inj isHead
      rw [beq_eq_false_iff_ne]
      rintro rfl
      exact absurd isDigit (by decide)

/-- The reader of numbers takes a proper spelling. -/
theorem number_text
    (atEnd : FileFault)
    (proper : spelling.Proper)
    (negative : Bool)
    {rest : List Char}
    (ends : Ends rest) :
    number atEnd (signText negative ++ spelling.text ++ rest) =
      .ok (spelling.literal negative, rest) := by
  have exponentTaken := exponentPart_exponentText atEnd spelling ends
  have afterPlaces := head_exponentText spelling ends
  have wholeTaken :=
    wholeDigits_append atEnd proper.nonempty proper.wholeDigits
      proper.noLeadingZero (head_fractionText spelling ends)
  have asText :
      signText negative ++ spelling.text ++ rest =
        signText negative ++
          (spelling.whole ++
            (spelling.fractionText ++ (spelling.exponentText ++ rest))) := by
    simp [text]
  have signRead :
      (if negative = true then some '-' else none).isSome = negative := by
    cases negative <;> rfl
  unfold number
  rw [asText, bind_of_ok (sign_taken proper negative _), bind_of_ok wholeTaken]
  unfold fractionText literal places
  cases hasFraction : spelling.fraction with
  | none =>
      have absent :
          ∀ c ∈ (spelling.exponentText ++ rest).head?,
            (c == '.') = false := by
        intro c isHead
        exact beq_eq_false_iff_ne.mpr (afterPlaces c isHead).2
      rw [List.nil_append, bind_of_ok (optionalMark_of_absent absent)]
      simp only [pure_bind]
      rw [bind_of_ok exponentTaken, signRead]
      rfl
  | some written =>
      have nonempty : written ≠ [] := by
        rintro rfl
        exact proper.fractionNonempty hasFraction
      have areDigits : ∀ c ∈ written, c.isDigit = true := by
        have := proper.fractionDigits
        rwa [places, hasFraction] at this
      have placesTaken :=
        someDigits_append atEnd nonempty areDigits
          fun c isHead => (afterPlaces c isHead).1
      have pointTaken (others : List Char) :
          optionalMark (· == '.') ('.' :: others) = .ok (some '.', others) :=
        optionalMark_cons rfl _
      rw [List.cons_append, bind_of_ok (pointTaken _)]
      simp only
      rw [bind_of_ok (map_of_ok placesTaken some), bind_of_ok exponentTaken,
        signRead]
      rfl

/-- A number starts with its sign or with a digit. -/
theorem Proper.leading
    (proper : spelling.Proper)
    (negative : Bool) :
    ∃ c others,
      signText negative ++ spelling.text = c :: others ∧
        (c = '-' ∨ c.isDigit = true) := by
  cases negative with
  | true =>
      exact ⟨'-', _, rfl, .inl rfl⟩
  | false =>
      obtain ⟨c, others, whole, isDigit⟩ := proper.first
      refine
        ⟨c, others ++ (spelling.fractionText ++ spelling.exponentText), ?_,
          .inr isDigit⟩
      rw [text, whole]
      rfl

theorem visible_of_leading
    {c : Char}
    (leading : c = '-' ∨ c.isDigit = true) :
    isBlank c = false ∧ c ≠ ']' ∧ c ≠ '}' := by
  have different
      (other : Char)
      (notLeading : ¬ (other = '-' ∨ other.isDigit = true)) :
      c ≠ other := by
    rintro rfl
    exact notLeading leading
  have space := different ' ' (by decide)
  have line := different '\n' (by decide)
  have tab := different '\t' (by decide)
  have carriage := different '\r' (by decide)
  exact
    ⟨by simp [isBlank, space, line, tab, carriage],
      different ']' (by decide), different '}' (by decide)⟩

/-- A properly spelled number is read as its literal. -/
theorem reads_anyNumber
    (proper : spelling.Proper)
    (negative : Bool) :
    Reads anyNumber (signText negative ++ spelling.text)
      (spelling.literal negative) := by
  obtain ⟨c, others, isText, leading⟩ := proper.leading negative
  have visible := visible_of_leading leading
  refine ⟨⟨c, others, isText, visible⟩, ?_⟩
  intro rest ends
  unfold anyNumber
  rw [isText, List.cons_append, bind_of_ok (peek_cons visible.1 _),
    if_pos leading, ← List.cons_append, ← isText]
  exact number_text .endsEarly proper negative ends

end Spelling

section Naturals

/-- No zero leads the digits of a positive number. -/
theorem head_toDigits
    {n : Nat}
    (positive : 0 < n) :
    (Nat.toDigits 10 n).head? ≠ some '0' := by
  induction n using Nat.strong_induction_on with
  | _ n inductionHypothesis =>
      rw [Nat.toDigits_eq_if (by norm_num)]
      split_ifs with single
      · intro isZero
        have := Nat.digitChar_eq_zero.mp (Option.some.inj isZero)
        omega
      · have fewer := inductionHypothesis (n / 10) (by omega) (by omega)
        rw [List.head?_append]
        cases leads : (Nat.toDigits 10 (n / 10)).head? with
        | none =>
            exact absurd (List.head?_eq_none_iff.mp leads) Nat.toDigits_ne_nil
        | some c =>
            rw [leads] at fewer
            exact fewer

/-- The spelling of a natural number. -/
def naturalSpelling (n : Nat) : Spelling :=
  { whole := Nat.toDigits 10 n, fraction := none, exponent := none }

theorem naturalSpelling_proper (n : Nat) :
    (naturalSpelling n).Proper where
  nonempty := Nat.toDigits_ne_nil
  wholeDigits := fun _ member =>
    Nat.isDigit_of_mem_toDigits (by norm_num) (by norm_num) member
  noLeadingZero := by
    rcases Nat.eq_zero_or_pos n with rfl | positive
    · exact .inl rfl
    · exact .inr (head_toDigits positive)
  fractionNonempty := nofun
  fractionDigits := nofun

/-- A natural number is read up to the maximum, and refused above it. -/
theorem readsIff_natural (n maximum : Nat) :
    ReadsIff (natural maximum) (ProblemFile.naturalText n) n
      (n ≤ maximum) := by
  have number := Spelling.reads_anyNumber (naturalSpelling_proper n) false
  have isText :
      Spelling.signText false ++ (naturalSpelling n).text =
        ProblemFile.naturalText n := by
    simp [Spelling.signText, Spelling.text, naturalSpelling,
      Spelling.fractionText, Spelling.exponentText, ProblemFile.naturalText]
  have value :
      digitsValue ((naturalSpelling n).literal false).digits = n := by
    change
      digitsValue ((Nat.toDigits 10 n ++ []).dropWhile (· == '0')) = n
    rw [digitsValue_dropWhile_zero, List.append_nil, digitsValue_toDigits]
  rw [isText] at number
  constructor
  case reads =>
    intro inRange
    refine ⟨number.starts, ?_⟩
    intro rest ends
    unfold natural
    rw [bind_of_ok (number.taken rest ends), value]
    simp only [inRange, decide_true]
    rfl
  case refuses =>
    intro tooLarge
    refine ⟨number.starts, ?_⟩
    intro rest ends
    unfold natural
    rw [bind_of_ok (number.taken rest ends), value]
    simp only [tooLarge, decide_false]
    exact ⟨_, rfl⟩

/-- No number is written as a word. -/
theorem refuses_null : Refuses anyNumber "null".toList := by
  refine ⟨⟨'n', _, rfl, by decide, by decide, by decide⟩, ?_⟩
  intro rest _
  exact ⟨.invalid, rfl⟩

end Naturals

end Reader

end SdpRelay
