import QueryWalk.Number

namespace QueryWalk.Number

/-!
# The 64-bit interchange form

A number is stored in 64 bits: a sign bit, eleven bits of exponent and
fifty-two of fraction. Every not-a-number pattern reads as the one
`notANumber`, which is written with only its leading fraction bit set.
-/

/-- The number a 64-bit pattern stands for. -/
def ofBits (bits : Nat) : Number :=
  let negative := bits / Nat.pow 2 63 % 2 == 1
  let exponent : Nat := bits / Nat.pow 2 52 % Nat.pow 2 11
  let fraction : Nat := bits % Nat.pow 2 52
  if exponent = 2047 then
    if fraction = 0 then .infinity negative else .notANumber
  else
    let significand : Nat :=
      if exponent = 0 then fraction else Nat.pow 2 52 + fraction
    let signed : Int :=
      if negative then -(significand : Int) else significand
    let scale : Nat := max exponent 1
    if significand = 0 then
      if negative then .negativeZero else .whole 0
    else if 1075 ≤ scale then
      .whole (signed * Int.pow 2 (scale - 1075))
    else
      dyadic signed (1075 - scale)

/--
The exponent and fraction bits of the positive value
`magnitude / 2 ^ places`.
-/
def magnitudeBits (magnitude places : Nat) : Nat :=
  let length := magnitude.log2
  if length + 1022 < places then
    magnitude * Nat.pow 2 (1074 - places)
  else
    let exponent := length + 1023 - places
    let significand : Nat :=
      if length ≤ 52 then
        magnitude * Nat.pow 2 (52 - length)
      else
        magnitude / Nat.pow 2 (length - 52)
    if 2047 ≤ exponent then
      2047 * Nat.pow 2 52
    else
      exponent * Nat.pow 2 52 + (significand - Nat.pow 2 52)

/-- The pattern of a nonzero value with its sign. -/
def signedBits (value : Int) (places : Nat) : Nat :=
  (if value < 0 then Nat.pow 2 63 else 0) + magnitudeBits value.natAbs places

/-- The 64-bit pattern of a number. -/
def toBits : Number → Nat
  | .whole value => if value = 0 then 0 else signedBits value 0
  | .fraction numerator places _ _ => signedBits numerator places
  | .negativeZero => Nat.pow 2 63
  | .infinity negative =>
      (if negative then Nat.pow 2 63 else 0) + 2047 * Nat.pow 2 52
  | .notANumber => 2047 * Nat.pow 2 52 + Nat.pow 2 51

end QueryWalk.Number
