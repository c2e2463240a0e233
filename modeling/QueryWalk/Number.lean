namespace QueryWalk

/-!
# Numbers

Depths, path indices and attribute values are binary floating-point numbers
with 53 significant bits. Each value has exactly one representation here, so
equality of representations is identity of values: not-a-number equals itself,
and zero differs from negative zero.
-/

/-- A floating-point number, described by its exact value. -/
inductive Number where
  /-- An integer of any size. -/
  | whole (value : Int)
  /-- The reduced binary fraction `numerator / 2 ^ places`. -/
  | fraction
      (numerator : Int)
      (places : Nat)
      (odd : numerator % 2 = 1)
      (proper : 0 < places)
  | negativeZero
  | infinity (negative : Bool)
  | notANumber
  deriving DecidableEq

namespace Number

instance : Inhabited Number := ⟨.whole 0⟩

/-- The number that counts `count` things. -/
def ofNat (count : Nat) : Number :=
  .whole count

/-- The number `numerator / 2 ^ places`, reduced to lowest terms. -/
def dyadic : Int → Nat → Number
  | numerator, 0 => .whole numerator
  | numerator, places + 1 =>
      if even : numerator % 2 = 0 then
        dyadic (numerator / 2) places
      else
        .fraction numerator (places + 1)
          (by omega) (Nat.succ_pos places)

/-- One half. -/
def half : Number :=
  .fraction 1 1 rfl Nat.one_pos

/-- Divide two naturals and round to the nearest, a tie to the even neighbour. -/
def divideToEven (numerator denominator : Nat) : Nat :=
  let quotient := numerator / denominator
  let remainder := numerator % denominator
  if denominator < 2 * remainder then
    quotient + 1
  else if 2 * remainder = denominator ∧ quotient % 2 = 1 then
    quotient + 1
  else
    quotient

/-- The integers up to this one, `2 ^ 53`, have all their bits kept. -/
def exactLimit : Nat :=
  9007199254740992

/-- Keep the 53 leading bits of an integer, rounding a tie to even. -/
def keepSignificant (value : Int) : Int :=
  let magnitude := value.natAbs
  if magnitude ≤ exactLimit then
    value
  else
    let unit := Nat.pow 2 (magnitude.log2 - 52)
    let kept : Int := (divideToEven magnitude unit * unit : Nat)
    if value < 0 then -kept else kept

/-- The sum of a number and one, rounded to 53 significant bits. -/
def plusOne : Number → Number
  | .whole value => .whole (keepSignificant (value + 1))
  | .fraction numerator places _ _ =>
      dyadic (keepSignificant (numerator + Int.pow 2 places)) places
  | .negativeZero => .whole 1
  | .infinity negative => .infinity negative
  | .notANumber => .notANumber

/-- Whether a number is greater than a natural limit. -/
def exceeds : Number → Nat → Bool
  | .whole value, limit => decide ((limit : Int) < value)
  | .fraction numerator places _ _, limit =>
      decide ((limit : Int) * Int.pow 2 places < numerator)
  | .negativeZero, _ => false
  | .infinity negative, _ => !negative
  | .notANumber, _ => false

/-- The list index a number denotes, if it denotes one; both zeros do. -/
def toIndex? : Number → Option Nat
  | .whole value => if value < 0 then none else some value.toNat
  | .negativeZero => some 0
  | _ => none

/-- A counting number denotes itself as an index. -/
@[simp] theorem toIndex?_ofNat
    (count : Nat) :
    (ofNat count).toIndex? = some count :=
  rfl

/-- Up to the limit integers have all their bits kept. -/
theorem keepSignificant_of_small
    {value : Int}
    (small : value.natAbs ≤ exactLimit) :
    keepSignificant value = value := by
  simp only [keepSignificant, if_pos small]

/-- A small depth grows by exactly one. -/
theorem plusOne_ofNat
    {depth : Nat}
    (small : depth < exactLimit) :
    plusOne (ofNat depth) = ofNat (depth + 1) := by
  have bounded : ((depth : Int) + 1).natAbs ≤ exactLimit := by
    omega
  simp only [plusOne, ofNat, keepSignificant_of_small bounded]
  rfl

/-- Counting numbers compare with a limit as naturals do. -/
theorem exceeds_ofNat
    (depth limit : Nat) :
    exceeds (ofNat depth) limit = decide (limit < depth) := by
  simp [exceeds, ofNat]

end Number

end QueryWalk
