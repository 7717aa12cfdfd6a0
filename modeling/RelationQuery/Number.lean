import RelationQuery.Number.Shortest

/-! Numbers as JSON holds them, read from and written to decimal text. -/
namespace RelationQuery

inductive Number where
  | integer (value : Int) (fits : -0x8000000000000000 ≤ value ∧ value < 0x10000000000000000)
  | float (value : Binary64)
  deriving DecidableEq

namespace Number

def ofInt? (value : Int) : Option Number :=
  if fits : -0x8000000000000000 ≤ value ∧ value < 0x10000000000000000 then
    some (.integer value fits)
  else
    none

def ofNat? (value : Nat) : Option Number := ofInt? value

/-- The value as a signed word. A float is never one, whatever its value. -/
def signed? : Number → Option Int
  | .integer value _ => if value < 0x8000000000000000 then some value else none
  | .float _ => none

def unsigned? : Number → Option Nat
  | .integer value _ => if 0 ≤ value then some value.toNat else none
  | .float _ => none

def double? : Number → Option Binary64
  | .integer value _ => Binary64.ofInt? value
  | .float value => some value

def text : Number → List Char
  | .integer value _ => (toString value).toList
  | .float value => value.text

def digitsValue (digits : List Char) : Nat :=
  digits.foldl (fun value c => 10 * value + (c.toNat - '0'.toNat)) 0

def takeDigits? (cs : List Char) : Option (List Char × List Char) :=
  match cs.span Char.isDigit with
  | ([], _) => none
  | (digits, rest) => some (digits, rest)

def readExponent? : List Char → Option Int
  | '-' :: cs => signedBy (-1) cs
  | '+' :: cs => signedBy 1 cs
  | cs => signedBy 1 cs
where
  signedBy (sign : Int) (cs : List Char) : Option Int := do
    let (digits, rest) ← takeDigits? cs
    if rest.isEmpty then some (sign * digitsValue digits) else none

/-- A whole literal is an integer while it fits a word, signed if it has a sign. `-0` and all
other literals are floats. -/
def ofLiteral? (negative : Bool) (whole fraction : List Char) (exponent? : Option Int) :
    Option Number :=
  let digits := digitsValue (whole ++ fraction)
  let exponent := exponent?.getD 0 - fraction.length
  let float := (Binary64.ofDecimal? negative digits exponent).map Number.float
  if fraction.isEmpty ∧ exponent? = none then
    if negative then
      if digits = 0 ∨ 0x8000000000000000 < digits then float else ofInt? (-digits)
    else
      (ofInt? digits).or float
  else
    float

def read? (cs : List Char) : Option Number := do
  let (negative, cs) := match cs with
    | '-' :: cs => (true, cs)
    | cs => (false, cs)
  let (whole, cs) ← takeDigits? cs
  if whole.head? = some '0' ∧ 1 < whole.length then none
  let (fraction, cs) ← match cs with
    | '.' :: cs => takeDigits? cs
    | cs => some ([], cs)
  match cs with
  | [] => ofLiteral? negative whole fraction none
  | 'e' :: cs | 'E' :: cs => ofLiteral? negative whole fraction (some (← readExponent? cs))
  | _ => none

end Number

end RelationQuery
