/-! Finite binary64 numbers, held exactly. -/
namespace RelationQuery

/-- The number `±mantissa · 2 ^ scale / 2 ^ 1074`. The mantissa is below `2 ^ 53`, and below
`2 ^ 52` only at the least scale, which leaves one form for each number. -/
structure Binary64 where
  negative : Bool
  mantissa : Nat
  scale : Nat
  mantissa_lt : mantissa < 0x20000000000000
  scale_le : scale ≤ 2045
  normal : 0x10000000000000 ≤ mantissa ∨ scale = 0
  deriving DecidableEq

namespace Binary64

def zero (negative : Bool) : Binary64 :=
  ⟨negative, 0, 0, by decide, by decide, .inr rfl⟩

def units (x : Binary64) : Nat := x.mantissa <<< x.scale

def divideToEven (num den : Nat) : Nat :=
  let quotient := num / den
  let twice := 2 * (num % den)
  if den < twice ∨ (twice = den ∧ quotient % 2 = 1) then quotient + 1 else quotient

/-- The nearest number to `num / den`, a tie going to the even mantissa; none beyond the range. -/
def nearest? (negative : Bool) (num den : Nat) : Option Binary64 :=
  let num := num <<< 1074
  let scale := (num / den).log2 + 1 - 53
  let mantissa := divideToEven num (den <<< scale)
  let (mantissa, scale) :=
    if mantissa = 0x20000000000000 then (0x10000000000000, scale + 1) else (mantissa, scale)
  if h : mantissa < 0x20000000000000 ∧ scale ≤ 2045 ∧
      (0x10000000000000 ≤ mantissa ∨ scale = 0) then
    some ⟨negative, mantissa, scale, h.1, h.2.1, h.2.2⟩
  else
    none

def ofInt? (value : Int) : Option Binary64 := nearest? (decide (value < 0)) value.natAbs 1

/-- The nearest number to `±digits · 10 ^ exponent`. Exponents that no double reaches are
settled first, so that no power of ten outgrows the range. -/
def ofDecimal? (negative : Bool) (digits : Nat) (exponent : Int) : Option Binary64 :=
  let magnitude := exponent + (Nat.toDigits 10 digits).length
  if digits = 0 ∨ magnitude < -400 then some (zero negative)
  else if 400 < magnitude then none
  else nearest? negative (digits * Nat.pow 10 exponent.toNat) (Nat.pow 10 (-exponent).toNat)

def integral? (x : Binary64) : Option Int :=
  if x.units % (1 <<< 1074) = 0 then
    let magnitude : Int := (x.units >>> 1074 : Nat)
    some (if x.negative then -magnitude else magnitude)
  else
    none

end Binary64

end RelationQuery
