import QueryWalk.Number.Binary

namespace QueryWalk.Number

/-!
# Decimal text

A number is written with the fewest decimal digits that read back as the same
number. Of several such digit strings of one length the closest to the number
is taken, and of two equally close ones the even one. Values from `10 ^ 21` on
and values below `10 ^ -6` are written with an exponent.
-/

/-- A positive rational number, as a quotient of naturals. -/
structure Ratio where
  numerator : Nat
  denominator : Nat

namespace Ratio

/-- Whether one ratio is below another. -/
def below (left right : Ratio) : Bool :=
  decide (left.numerator * right.denominator <
    right.numerator * left.denominator)

/-- The ratio `numerator / 2 ^ places`. -/
def binary (numerator places : Nat) : Ratio :=
  ⟨numerator, Nat.pow 2 places⟩

/-- The ratio multiplied by a power of ten that may be negative. -/
def shift (ratio : Ratio) (exponent : Int) : Ratio :=
  if exponent < 0 then
    ⟨ratio.numerator, ratio.denominator * Nat.pow 10 exponent.natAbs⟩
  else
    ⟨ratio.numerator * Nat.pow 10 exponent.natAbs, ratio.denominator⟩

/-- The distance between two ratios. -/
def distance (left right : Ratio) : Ratio :=
  ⟨((left.numerator * right.denominator : Int) -
      right.numerator * left.denominator).natAbs,
    left.denominator * right.denominator⟩

end Ratio

/--
The ratios that round to one number: those between `lower` and `upper`, ends
included when `closed`.
-/
structure RoundingInterval where
  value : Ratio
  lower : Ratio
  upper : Ratio
  closed : Bool

namespace RoundingInterval

/-- Whether a ratio rounds to the number of the interval. -/
def contains (interval : RoundingInterval) (ratio : Ratio) : Bool :=
  (interval.lower.below ratio && ratio.below interval.upper) ||
    (interval.closed &&
      !ratio.below interval.lower && !interval.upper.below ratio)

/-- The rounding interval of the positive number with the given pattern. -/
def ofBits (bits : Nat) : RoundingInterval :=
  let exponent := bits / Nat.pow 2 52
  let fraction : Nat := bits % Nat.pow 2 52
  let significand : Nat :=
    if exponent = 0 then fraction else Nat.pow 2 52 + fraction
  let scale : Nat := max exponent 1
  -- The number is `significand * 2 ^ scale / 2 ^ 1075`; quarters of its last
  -- place are counted so that both half-way points are integers.
  let quarters (count : Nat) : Ratio := .binary (count * Nat.pow 2 scale) 1077
  let gapBelow :=
    if fraction = 0 ∧ 1 < exponent then 1 else 2
  { value := quarters (4 * significand)
    lower := quarters (4 * significand - gapBelow)
    upper := quarters (4 * significand + 2)
    closed := significand % 2 == 0 }

end RoundingInterval

/-- The decimal number `digits * 10 ^ exponent`. -/
structure Decimal where
  digits : Nat
  exponent : Int

namespace Decimal

/-- The exact value of a decimal. -/
def toRatio (decimal : Decimal) : Ratio :=
  Ratio.shift ⟨decimal.digits, 1⟩ decimal.exponent

/-- Remove trailing zeros, at most `bound` of them. -/
def trim : Nat → Decimal → Decimal
  | 0, decimal => decimal
  | bound + 1, decimal =>
      if decimal.digits ≠ 0 ∧ decimal.digits % 10 = 0 then
        trim bound ⟨decimal.digits / 10, decimal.exponent + 1⟩
      else
        decimal

end Decimal

/--
The least power of ten, from `10 ^ zeros` on, that lifts a ratio to one or
more; at most `bound` powers are tried.
-/
def liftingExponent (ratio : Ratio) : Nat → Nat → Nat
  | 0, zeros => zeros
  | bound + 1, zeros =>
      if ratio.denominator ≤ ratio.numerator * Nat.pow 10 zeros then
        zeros
      else
        liftingExponent ratio bound (zeros + 1)

/-- The exponent of the leading decimal digit of a positive ratio. -/
def leadingExponent (ratio : Ratio) : Int :=
  let integral := ratio.numerator / ratio.denominator
  if integral ≠ 0 then
    ((Nat.toDigits 10 integral).length : Int) - 1
  else
    -(liftingExponent ratio 400 1 : Int)

/--
The neighbour of a ratio among the multiples of `10 ^ exponent` that reads
back as the number, the closer one if both do.
-/
def gridPoint?
    (interval : RoundingInterval)
    (exponent : Int) :
    Option Decimal :=
  let scaled := interval.value.shift (-exponent)
  let below : Decimal :=
    ⟨scaled.numerator / scaled.denominator, exponent⟩
  let above : Decimal := ⟨below.digits + 1, exponent⟩
  let distanceBelow := below.toRatio.distance interval.value
  let distanceAbove := above.toRatio.distance interval.value
  match interval.contains below.toRatio,
      interval.contains above.toRatio with
  | false, false => none
  | true, false => some below
  | false, true => some above
  | true, true =>
      if distanceBelow.below distanceAbove then
        some below
      else if distanceAbove.below distanceBelow then
        some above
      else if below.digits % 2 = 0 then
        some below
      else
        some above

/-- The shortest decimal that reads back as the number of an interval. -/
def shortest (interval : RoundingInterval) : Decimal :=
  let leading := leadingExponent interval.value
  let found :=
    (List.range 17).findSome? fun (places : Nat) =>
      gridPoint? interval (leading - places)
  (found.getD ⟨0, 0⟩).trim 20

/-- Integral digits up to which a number is written without an exponent. -/
def positionalDigits : Int := 21

/-- Leading zeros after the point from which an exponent is used. -/
def leadingZeros : Int := 6

/-- Lay out a decimal: the point among its digits, or an exponent. -/
def layout (decimal : Decimal) : String :=
  let digits := Nat.toDigits 10 decimal.digits
  let count : Int := digits.length
  -- The point stands after this many digits.
  let point := count + decimal.exponent
  let zeros (length : Int) := List.replicate length.toNat '0'
  if count ≤ point ∧ point ≤ positionalDigits then
    String.ofList (digits ++ zeros (point - count))
  else if 0 < point ∧ point ≤ positionalDigits then
    String.ofList
      (digits.take point.toNat ++ '.' :: digits.drop point.toNat)
  else if -leadingZeros < point ∧ point ≤ 0 then
    String.ofList ('0' :: '.' :: (zeros (-point) ++ digits))
  else
    let exponent := point - 1
    let mantissa :=
      match digits with
      | first :: second :: rest => first :: '.' :: second :: rest
      | _ => digits
    String.ofList
      (mantissa ++
        'e' :: (if exponent < 0 then '-' else '+') ::
          Nat.toDigits 10 exponent.natAbs)

/-- The decimal text of the positive number with the given pattern. -/
def positiveText (bits : Nat) : String :=
  layout (shortest (.ofBits bits))

/-- The decimal text of a number. Negative zero is written as zero. -/
def text (number : Number) : String :=
  match number with
  | .whole value =>
      if value.natAbs < exactLimit then
        toString value
      else if value < 0 then
        "-" ++ positiveText (signedBits value 0 % Nat.pow 2 63)
      else
        positiveText (signedBits value 0)
  | .fraction numerator places _ _ =>
      if numerator < 0 then
        "-" ++ positiveText (signedBits numerator places % Nat.pow 2 63)
      else
        positiveText (signedBits numerator places)
  | .negativeZero => "0"
  | .infinity negative => if negative then "-Infinity" else "Infinity"
  | .notANumber => "NaN"

end QueryWalk.Number
