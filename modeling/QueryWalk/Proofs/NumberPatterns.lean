import Mathlib.Algebra.Ring.Nat
import QueryWalk.Number.Binary

namespace QueryWalk.Number

/-!
# Patterns of one number

A finite number is a sign and a size, counted in units of the least number above zero,
`2 ^ (-1074)`. The size that a 64-bit pattern denotes grows with the exponent and
fraction bits read as one integer, so no two patterns of finite numbers stand for the
same number. What is left are the patterns of not-a-number, which all do.
-/

/-- Every finite number is a multiple of `2 ^ (-finestPlaces)`. -/
def finestPlaces : Nat :=
  1074

/-- The sign and the size of a finite number, in units of the least one above zero. -/
def signAndSize? : Number → Option (Bool × Nat)
  | .whole value =>
      some (decide (value < 0), value.natAbs * 2 ^ finestPlaces)
  | .fraction numerator places _ _ =>
      some
        (decide (numerator < 0),
          numerator.natAbs * 2 ^ (finestPlaces - places))
  | .negativeZero => some (true, 0)
  | .infinity _ => none
  | .notANumber => none

/-- Reducing a fraction changes neither its sign nor its size. -/
theorem signAndSize?_dyadic
    {places : Nat}
    (numerator : Int)
    (within : places ≤ finestPlaces) :
    (dyadic numerator places).signAndSize? =
      some
        (decide (numerator < 0),
          numerator.natAbs * 2 ^ (finestPlaces - places)) := by
  induction places generalizing numerator with
  | zero =>
      rw [dyadic, signAndSize?, Nat.sub_zero]
  | succ places inductionHypothesis =>
      rw [dyadic]
      split
      case isTrue even =>
        have sameSign : numerator / 2 < 0 ↔ numerator < 0 := by
          omega
        have halved : numerator.natAbs = (numerator / 2).natAbs * 2 := by
          omega
        have oneMore :
            finestPlaces - places = finestPlaces - (places + 1) + 1 := by
          omega
        rw [inductionHypothesis _ (Nat.le_of_succ_le within),
          decide_eq_decide.mpr sameSign, halved, oneMore, pow_succ',
          Nat.mul_assoc]
      case isFalse =>
        rw [signAndSize?]

/-- An integer that is doubled several times keeps its sign. -/
theorem signAndSize?_whole_mul
    (value : Int)
    (times : Nat) :
    (whole (value * Int.pow 2 times)).signAndSize? =
      some
        (decide (value < 0), value.natAbs * 2 ^ (times + finestPlaces)) := by
  have power : Int.pow 2 times = ((2 ^ times : Nat) : Int) :=
    (Int.natCast_pow 2 times).symm
  have isPositive : 0 < ((2 ^ times : Nat) : Int) :=
    Int.natCast_pos.mpr (Nat.two_pow_pos times)
  have sameSign : value * ((2 ^ times : Nat) : Int) < 0 ↔ value < 0 := by
    have scaled := Int.mul_lt_mul_right (b := value) (c := 0) isPositive
    rwa [Int.zero_mul] at scaled
  rw [signAndSize?, power, decide_eq_decide.mpr sameSign, Int.natAbs_mul,
    Int.natAbs_natCast, pow_add, Nat.mul_assoc]

namespace Pattern

/-- Whether the sign bit of a pattern is set. -/
def isNegative (bits : Nat) : Bool :=
  bits / 2 ^ 63 % 2 == 1

/-- The eleven exponent bits of a pattern. -/
def exponentBits (bits : Nat) : Nat :=
  bits / 2 ^ 52 % 2 ^ 11

/-- The fifty-two fraction bits of a pattern. -/
def fractionBits (bits : Nat) : Nat :=
  bits % 2 ^ 52

/-- The fraction with its leading bit, which is there unless the exponent is zero. -/
def significand (exponent fraction : Nat) : Nat :=
  if exponent = 0 then fraction else 2 ^ 52 + fraction

/-- The size that exponent and fraction bits denote if they denote a finite number. -/
def size (exponent fraction : Nat) : Nat :=
  significand exponent fraction * 2 ^ (max exponent 1 - 1)

/-- A significand with its sign. -/
def signed (negative : Bool) (significand : Nat) : Int :=
  if negative then -(significand : Int) else significand

/-- The patterns of not-a-number have all exponent bits and some fraction bit set. -/
def IsOfNotANumber (bits : Nat) : Prop :=
  exponentBits bits = 2047 ∧ fractionBits bits ≠ 0

/--
Two patterns stand for the same number, as identity of values has it: they are one
pattern, or both are patterns of not-a-number. The two patterns of zero are not the same.
-/
def StandAlike (bits others : Nat) : Prop :=
  bits = others ∨ IsOfNotANumber bits ∧ IsOfNotANumber others

/-- The fraction bits are fewer than would carry into the exponent. -/
theorem fractionBits_lt
    (bits : Nat) :
    fractionBits bits < 2 ^ 52 :=
  Nat.mod_lt bits (Nat.two_pow_pos 52)

/-- A pattern is known by its sign, its exponent and its fraction. -/
theorem eq_of_parts
    {bits others : Nat}
    (fits : bits < 2 ^ 64)
    (otherFits : others < 2 ^ 64)
    (sameSign : isNegative bits = isNegative others)
    (sameExponent : exponentBits bits = exponentBits others)
    (sameFraction : fractionBits bits = fractionBits others) :
    bits = others := by
  rw [isNegative, isNegative, Bool.eq_iff_iff, beq_iff_eq, beq_iff_eq] at sameSign
  rw [exponentBits, exponentBits] at sameExponent
  rw [fractionBits, fractionBits] at sameFraction
  omega

/-- The sign of a significand changes nothing about its size. -/
theorem natAbs_signed
    (negative : Bool)
    (significand : Nat) :
    (signed negative significand).natAbs = significand := by
  rw [signed]
  split <;> omega

/-- Unless it is zero, a significand with the sign bit set is below zero. -/
theorem decide_signed_neg
    {significand : Nat}
    (negative : Bool)
    (isNonzero : significand ≠ 0) :
    decide (signed negative significand < 0) = negative := by
  cases negative
  · exact decide_eq_false (Int.not_lt.mpr (Int.natCast_nonneg significand))
  · apply decide_eq_true
    rw [signed, if_pos rfl]
    omega

section Size

variable {first second fraction other : Nat}

/-- A size stays below what the next exponent starts with. -/
theorem size_lt
    (fits : fraction < 2 ^ 52) :
    size first fraction < 2 ^ 52 * 2 ^ first := by
  cases first with
  | zero =>
      simpa [size, significand] using fits
  | succ first =>
      have scaled : max (first + 1) 1 - 1 = first := by
        omega
      have doubled : 2 ^ (first + 1) = 2 * 2 ^ first := pow_succ' 2 first
      rw [size, significand, if_neg (Nat.succ_ne_zero first), scaled,
        doubled, ← Nat.mul_assoc]
      exact Nat.mul_lt_mul_of_pos_right (by omega) (Nat.two_pow_pos first)

/-- Sizes are ordered as the exponent and fraction bits are, read as one integer. -/
theorem size_lt_size
    (fits : fraction < 2 ^ 52)
    (otherFits : other < 2 ^ 52)
    (less : first * 2 ^ 52 + fraction < second * 2 ^ 52 + other) :
    size first fraction < size second other := by
  obtain lower | same : first < second ∨ first = second := by
    omega
  · have isScaled : second ≠ 0 := Nat.ne_zero_of_lt lower
    have atLeast : 2 ^ 52 * 2 ^ first ≤ size second other := by
      rw [size, significand, if_neg isScaled]
      exact
        Nat.mul_le_mul (Nat.le_add_right _ _)
          (Nat.pow_le_pow_right Nat.two_pos (by omega))
    exact Nat.lt_of_lt_of_le (size_lt fits) atLeast
  · subst same
    have lessSignificand :
        significand first fraction < significand first other := by
      rw [significand, significand]
      split <;> omega
    exact
      Nat.mul_lt_mul_of_pos_right lessSignificand
        (Nat.two_pow_pos (max first 1 - 1))

/-- A size has one exponent and one fraction. -/
theorem eq_of_size_eq
    (fits : fraction < 2 ^ 52)
    (otherFits : other < 2 ^ 52)
    (same : size first fraction = size second other) :
    first = second ∧ fraction = other := by
  have notLess :
      ¬first * 2 ^ 52 + fraction < second * 2 ^ 52 + other :=
    fun less => Nat.ne_of_lt (size_lt_size fits otherFits less) same
  have notMore :
      ¬second * 2 ^ 52 + other < first * 2 ^ 52 + fraction :=
    fun more => Nat.ne_of_gt (size_lt_size otherFits fits more) same
  omega

end Size

end Pattern

open Pattern

variable {bits others : Nat}

/-- Patterns with all exponent bits set are those of the numbers that are not finite. -/
theorem ofBits_of_full
    (full : exponentBits bits = 2047) :
    ofBits bits =
      if fractionBits bits = 0 then
        .infinity (isNegative bits)
      else
        .notANumber :=
  if_pos full

/-- Other patterns stand for the finite number that has their sign and their size. -/
theorem signAndSize?_ofBits
    (finite : exponentBits bits ≠ 2047) :
    (ofBits bits).signAndSize? =
      some
        (isNegative bits, size (exponentBits bits) (fractionBits bits)) := by
  have unfolded :
      ofBits bits =
        let significand := significand (exponentBits bits) (fractionBits bits)
        let signed := signed (isNegative bits) significand
        let scale := max (exponentBits bits) 1
        if significand = 0 then
          if isNegative bits then .negativeZero else .whole 0
        else if 1075 ≤ scale then
          .whole (signed * Int.pow 2 (scale - 1075))
        else
          dyadic signed (1075 - scale) :=
    if_neg finite
  rw [unfolded, size]
  have atLeastOne : 1 ≤ max (exponentBits bits) 1 := Nat.le_max_right _ 1
  generalize significand (exponentBits bits) (fractionBits bits) = significand,
    max (exponentBits bits) 1 = scale,
    isNegative bits = negative at atLeastOne
  dsimp only
  split
  case isTrue isZero =>
    rw [isZero, Nat.zero_mul]
    cases negative
    · rw [if_neg Bool.false_ne_true, signAndSize?, Int.natAbs_zero,
        Nat.zero_mul, decide_eq_false (Int.lt_irrefl 0)]
    · rw [if_pos rfl, signAndSize?]
  case isFalse isNonzero =>
    have sameSign := decide_signed_neg negative isNonzero
    have sameSize := natAbs_signed negative significand
    split
    case isTrue atUnit =>
      have exponents : scale - 1075 + finestPlaces = scale - 1 := by
        rw [finestPlaces]
        omega
      rw [signAndSize?_whole_mul, sameSign, sameSize, exponents]
    case isFalse belowUnit =>
      have within : 1075 - scale ≤ finestPlaces := by
        rw [finestPlaces]
        omega
      have exponents : finestPlaces - (1075 - scale) = scale - 1 := by
        rw [finestPlaces]
        omega
      rw [signAndSize?_dyadic _ within, sameSign, sameSize, exponents]

/-- A pattern of a finite number is a pattern with some exponent bit unset. -/
theorem signAndSize?_ofBits_eq_none_iff :
    (ofBits bits).signAndSize? = none ↔ exponentBits bits = 2047 := by
  constructor
  · intro notFinite
    by_contra finite
    rw [signAndSize?_ofBits finite] at notFinite
    cases notFinite
  · intro full
    rw [ofBits_of_full full]
    split <;> rfl

/-- Patterns with all exponent bits set differ by their signs unless of not-a-number. -/
theorem standAlike_of_full
    (fits : bits < 2 ^ 64)
    (otherFits : others < 2 ^ 64)
    (full : exponentBits bits = 2047)
    (otherFull : exponentBits others = 2047)
    (same : ofBits bits = ofBits others) :
    StandAlike bits others := by
  rw [ofBits_of_full full, ofBits_of_full otherFull] at same
  split at same
  case isTrue isZero =>
    split at same
    case isTrue otherZero =>
      exact
        .inl
          (eq_of_parts fits otherFits (Number.infinity.inj same)
            (full.trans otherFull.symm) (isZero.trans otherZero.symm))
    case isFalse =>
      cases same
  case isFalse isNonzero =>
    split at same
    case isTrue =>
      cases same
    case isFalse otherNonzero =>
      exact .inr ⟨⟨full, isNonzero⟩, otherFull, otherNonzero⟩

/-- A finite number has one pattern. -/
theorem eq_of_finite
    (fits : bits < 2 ^ 64)
    (otherFits : others < 2 ^ 64)
    (finite : exponentBits bits ≠ 2047)
    (otherFinite : exponentBits others ≠ 2047)
    (same : ofBits bits = ofBits others) :
    bits = others := by
  have sameParts := congrArg signAndSize? same
  rw [signAndSize?_ofBits finite, signAndSize?_ofBits otherFinite,
    Option.some.injEq, Prod.mk.injEq] at sameParts
  obtain ⟨sameSign, sameSize⟩ := sameParts
  obtain ⟨sameExponent, sameFraction⟩ :=
    eq_of_size_eq (fractionBits_lt bits) (fractionBits_lt others) sameSize
  exact eq_of_parts fits otherFits sameSign sameExponent sameFraction

/-- Two patterns stand for one number only if they are the same or of not-a-number. -/
theorem ofBits_eq_iff
    (fits : bits < 2 ^ 64)
    (otherFits : others < 2 ^ 64) :
    ofBits bits = ofBits others ↔ StandAlike bits others := by
  constructor
  · intro same
    have alike : exponentBits bits = 2047 ↔ exponentBits others = 2047 := by
      rw [← signAndSize?_ofBits_eq_none_iff, same,
        signAndSize?_ofBits_eq_none_iff]
    by_cases full : exponentBits bits = 2047
    · exact standAlike_of_full fits otherFits full (alike.mp full) same
    · exact
        .inl (eq_of_finite fits otherFits full (mt alike.mpr full) same)
  · rintro (same | ⟨⟨full, isNonzero⟩, otherFull, otherNonzero⟩)
    · rw [same]
    · rw [ofBits_of_full full, ofBits_of_full otherFull,
        if_neg isNonzero, if_neg otherNonzero]

end QueryWalk.Number
