import RelationQuery.Number.Binary64

/-! The fewest decimal digits that read back as a binary64 number. -/
namespace RelationQuery

structure Decimal where
  digits : Nat
  exponent : Int
  deriving DecidableEq

namespace Binary64

def gapBelow (x : Binary64) : Nat :=
  if x.mantissa = 0x10000000000000 ∧ 0 < x.scale then 1 else 2

/-- Whether a decimal lies among the reals that round to the magnitude of `x`. The ends are
halfway to the neighbours and belong to the even mantissa. -/
def covers (x : Binary64) (d : Decimal) : Bool :=
  let low := (4 * x.mantissa - x.gapBelow) <<< x.scale * Nat.pow 10 (-d.exponent).toNat
  let high := (4 * x.mantissa + 2) <<< x.scale * Nat.pow 10 (-d.exponent).toNat
  let value := (d.digits * Nat.pow 10 d.exponent.toNat) <<< 1076
  if x.mantissa % 2 = 0 then low ≤ value ∧ value ≤ high else low < value ∧ value < high

def expansion (x : Binary64) : Decimal := ⟨x.units * Nat.pow 5 1074, -1074⟩

def leadingExponent (num den : Nat) : Int :=
  if den ≤ num then
    (Nat.toDigits 10 (num / den)).length - 1
  else
    let shift := (Nat.toDigits 10 den).length - (Nat.toDigits 10 num).length
    if den ≤ num * Nat.pow 10 shift then -shift else -(shift + 1)

/-- The nearer of the two decimals around `x` with the given last place that reads back as `x`;
of two equally near ones the even. -/
def onGrid? (x : Binary64) (place : Int) : Option Decimal :=
  let num := x.units * Nat.pow 10 (-place).toNat
  let den := Nat.pow 10 place.toNat <<< 1074
  let below := num / den
  let twice := 2 * (num % den)
  let lowerFirst := twice < den ∨ (twice = den ∧ below % 2 = 0)
  let order := if lowerFirst then [below, below + 1] else [below + 1, below]
  (order.map (⟨·, place⟩)).find? x.covers

/-- Seventeen digits always suffice; the whole expansion stands for the case that never comes. -/
def shortest (x : Binary64) : Decimal :=
  let leading := leadingExponent x.units (1 <<< 1074)
  ((List.range 17).findSome? fun (more : Nat) => x.onGrid? (leading - more)).getD x.expansion

end Binary64

namespace Decimal

def significant (d : Decimal) : List Char :=
  ((Nat.toDigits 10 d.digits).reverse.dropWhile (· == '0')).reverse

def zeros (n : Nat) : List Char := List.replicate n '0'

def positional (digits : List Char) (leading : Int) : List Char :=
  if leading < 0 then
    '0' :: '.' :: (zeros (-leading - 1).toNat ++ digits)
  else
    let whole := leading.toNat + 1
    let fraction := digits.drop whole
    digits.take whole ++ zeros (whole - digits.length) ++
      '.' :: (if fraction.isEmpty then ['0'] else fraction)

def scientific (digits : List Char) (leading : Int) : List Char :=
  let mark := 'e' :: (if leading < 0 then '-' else '+') :: Nat.toDigits 10 leading.natAbs
  match digits with
  | [digit] => digit :: mark
  | digit :: more => digit :: '.' :: (more ++ mark)
  | [] => mark

/-- Positional from `10 ^ -5` to below `10 ^ 16`, scientific beyond. -/
def text (d : Decimal) : List Char :=
  let digits := d.significant
  let leading := d.exponent + (Nat.toDigits 10 d.digits).length - 1
  if -5 ≤ leading ∧ leading ≤ 15 then positional digits leading else scientific digits leading

end Decimal

def Binary64.text (x : Binary64) : List Char :=
  let sign := if x.negative then ['-'] else []
  if x.mantissa = 0 then sign ++ ['0', '.', '0'] else sign ++ x.shortest.text

end RelationQuery
