import Mathlib.Algebra.Order.Field.Power
import Mathlib.Algebra.Order.Ring.Rat
import Mathlib.Data.List.TakeWhile
import RelationQuery.Number.Shortest

/-! What a decimal is worth, and how it is told from its text. Main statement: reading the text of
a decimal gives its value back, in whichever of the notations it is written. -/
namespace RelationQuery

namespace Decimal

def value (d : Decimal) : ℚ := d.digits * 10 ^ d.exponent

theorem value_mul_pow (d : Decimal) :
    d.value * 10 ^ (-d.exponent).toNat = d.digits * 10 ^ d.exponent.toNat := by
  have exponent : d.exponent + (-d.exponent).toNat = d.exponent.toNat := by omega
  rw [value, mul_assoc, ← zpow_natCast, ← zpow_add₀ (by norm_num), exponent, zpow_natCast]

/-! ### Digits and their place -/

def placed (digits : List Char) (leading : Int) : ℚ :=
  Nat.ofDigitChars 10 digits 0 * 10 ^ (leading + 1 - digits.length)

theorem length_zeros (n : Nat) : (zeros n).length = n := List.length_replicate

theorem placed_append_zeros (digits : List Char) (n : Nat) (leading : Int) :
    placed (digits ++ zeros n) leading = placed digits leading := by
  have exponent : leading + 1 - digits.length = n + (leading + 1 - (digits ++ zeros n).length) := by
    rw [List.length_append, length_zeros]
    omega
  unfold placed
  rw [exponent, zpow_add₀ (by norm_num), zpow_natCast, Nat.ofDigitChars_append, zeros,
    Nat.ofDigitChars_replicate_zero]
  push_cast
  rw [mul_comm (10 ^ n : ℚ), mul_assoc]

theorem placed_zeros_append (n : Nat) (digits : List Char) (leading : Int) :
    placed (zeros n ++ digits) leading = placed digits (leading - n) := by
  have exponent : leading + 1 - (zeros n ++ digits).length = leading - n + 1 - digits.length := by
    rw [List.length_append, length_zeros]
    omega
  unfold placed
  rw [exponent, Nat.ofDigitChars_append, zeros, Nat.ofDigitChars_replicate_zero, Nat.mul_zero]

theorem placed_mul_zpow (digits : List Char) (leading exponent : Int) :
    placed digits leading * 10 ^ exponent = placed digits (leading + exponent) := by
  have sum : leading + exponent + 1 - digits.length = leading + 1 - digits.length + exponent := by
    omega
  unfold placed
  rw [sum, zpow_add₀ (by norm_num), mul_assoc]

theorem toDigits_eq_append (d : Decimal) :
    ∃ n, Nat.toDigits 10 d.digits = d.significant ++ zeros n := by
  let reversed := (Nat.toDigits 10 d.digits).reverse
  refine ⟨(reversed.takeWhile (· == '0')).length, ?_⟩
  have closing : reversed.takeWhile (· == '0') =
      zeros (reversed.takeWhile (· == '0')).length := by
    apply List.eq_replicate_of_mem
    intro c member
    simpa using List.mem_takeWhile_imp member
  calc Nat.toDigits 10 d.digits
      = (reversed.takeWhile (· == '0') ++ reversed.dropWhile (· == '0')).reverse := by
        rw [List.takeWhile_append_dropWhile, List.reverse_reverse]
    _ = d.significant ++ (reversed.takeWhile (· == '0')).reverse := List.reverse_append
    _ = d.significant ++ zeros (reversed.takeWhile (· == '0')).length := by
        rw [closing, zeros, List.reverse_replicate, List.length_replicate, zeros]

theorem value_eq_placed (d : Decimal) :
    d.value = placed d.significant (d.exponent + (Nat.toDigits 10 d.digits).length - 1) := by
  obtain ⟨n, digits⟩ := d.toDigits_eq_append
  have exponent : d.exponent + (Nat.toDigits 10 d.digits).length - 1 + 1 -
      (Nat.toDigits 10 d.digits).length = d.exponent := by
    omega
  rw [← placed_append_zeros _ n, ← digits, placed, exponent, Nat.ofDigitChars_ten_toDigits, value]

/-! ### Reading -/

def readPointed (cs : List Char) : ℚ :=
  placed (cs.filter (· ≠ '.')) ((cs.takeWhile (· ≠ '.')).length - 1)

def readExponent : List Char → Int
  | [] => 0
  | sign :: digits =>
    if sign = '-' then -(Nat.ofDigitChars 10 digits 0 : Int) else Nat.ofDigitChars 10 digits 0

/-- The number that a text without a sign in front is written for. -/
def read (cs : List Char) : ℚ :=
  readPointed (cs.takeWhile (· ≠ 'e')) * 10 ^ readExponent (cs.dropWhile (· ≠ 'e')).tail

theorem readExponent_mark (leading : Int) :
    readExponent ((if leading < 0 then '-' else '+') :: Nat.toDigits 10 leading.natAbs) =
      leading := by
  by_cases negative : leading < 0
  · rw [if_pos negative, readExponent, if_pos rfl, Nat.ofDigitChars_ten_toDigits]
    omega
  · rw [if_neg negative, readExponent, if_neg (by decide), Nat.ofDigitChars_ten_toDigits]
    omega

def Numerals (cs : List Char) : Prop := ∀ c ∈ cs, c.isDigit

namespace Numerals

variable {front back : List Char}

theorem append (first : Numerals front) (second : Numerals back) : Numerals (front ++ back) := by
  intro c member
  rcases List.mem_append.1 member with member | member
  · exact first c member
  · exact second c member

theorem zeros (n : Nat) : Numerals (zeros n) := by
  intro c member
  rw [List.eq_of_mem_replicate member]
  decide

theorem significant (d : Decimal) : Numerals d.significant := by
  obtain ⟨n, digits⟩ := d.toDigits_eq_append
  intro c member
  have inside : c ∈ Nat.toDigits 10 d.digits := by
    rw [digits]
    exact List.mem_append_left _ member
  exact Nat.isDigit_of_mem_toDigits (by decide) (by decide) inside

theorem take (held : Numerals front) (n : Nat) : Numerals (front.take n) :=
  fun c member => held c (List.mem_of_mem_take member)

theorem drop (held : Numerals front) (n : Nat) : Numerals (front.drop n) :=
  fun c member => held c (List.mem_of_mem_drop member)

theorem apart (held : Numerals front) (mark : Char) (other : mark.isDigit = false) :
    ∀ c ∈ front, decide (c ≠ mark) = true := by
  intro c member
  apply decide_eq_true
  rintro rfl
  simp [held c member] at other

theorem readPointed_append (first : Numerals front) (second : Numerals back) :
    readPointed (front ++ '.' :: back) = placed (front ++ back) (front.length - 1) := by
  have before := first.apart '.' rfl
  unfold readPointed
  rw [List.filter_append, List.filter_eq_self.2 before, List.filter_cons_of_neg (by decide),
    List.filter_eq_self.2 (second.apart '.' rfl), List.takeWhile_append_of_pos before,
    List.takeWhile_cons_of_neg (by decide), List.append_nil]

theorem readPointed_self (held : Numerals front) :
    readPointed front = placed front (front.length - 1) := by
  have before := held.apart '.' rfl
  unfold readPointed
  rw [List.filter_eq_self.2 before, List.takeWhile_eq_self_iff.2 before]

theorem unmarked (first : Numerals front) (second : Numerals back) :
    ∀ c ∈ front ++ '.' :: back, decide (c ≠ 'e') = true := by
  intro c member
  rcases List.mem_append.1 member with inside | inside
  · exact first.apart 'e' rfl c inside
  rcases List.mem_cons.1 inside with rfl | inside
  · rfl
  · exact second.apart 'e' rfl c inside

theorem read_append (first : Numerals front) (second : Numerals back) :
    read (front ++ '.' :: back) = placed (front ++ back) (front.length - 1) := by
  have before := first.unmarked second
  unfold read
  rw [List.takeWhile_eq_self_iff.2 before, List.dropWhile_eq_nil_iff.2 before, List.tail_nil,
    readExponent, zpow_zero, mul_one, first.readPointed_append second]

end Numerals

variable {digits : List Char}

theorem read_positional (held : Numerals digits) (leading : Int) :
    read (positional digits leading) = placed digits leading := by
  unfold positional
  split
  next small =>
    have after : Numerals (zeros (-leading - 1).toNat ++ digits) := (Numerals.zeros _).append held
    calc read (zeros 1 ++ '.' :: (zeros (-leading - 1).toNat ++ digits))
        = placed (zeros 1 ++ (zeros (-leading - 1).toNat ++ digits)) 0 :=
          (Numerals.zeros 1).read_append after
      _ = placed digits (0 - (1 : Nat) - (-leading - 1).toNat) := by
          rw [placed_zeros_append, placed_zeros_append]
      _ = placed digits leading := by
          congr 1
          omega
  next large =>
    dsimp only
    by_cases short : digits.length ≤ leading.toNat + 1
    · have before : Numerals (digits ++ zeros (leading.toNat + 1 - digits.length)) :=
        held.append (Numerals.zeros _)
      rw [List.drop_eq_nil_of_le short, List.take_of_length_le short]
      change read (_ ++ '.' :: zeros 1) = _
      rw [before.read_append (Numerals.zeros 1), placed_append_zeros, placed_append_zeros,
        List.length_append, length_zeros]
      congr 1
      omega
    · have full : leading.toNat + 1 - digits.length = 0 := by omega
      have behind : ¬(digits.drop (leading.toNat + 1)).isEmpty = true := by simpa using short
      rw [if_neg behind, full, zeros, List.replicate_zero, List.append_nil,
        (held.take _).read_append (held.drop _), List.take_append_drop, List.length_take]
      congr 1
      omega

theorem read_scientific (held : Numerals digits) (leading : Int) :
    read (scientific digits leading) = placed digits leading := by
  have marked {cs : List Char} (before : ∀ c ∈ cs, decide (c ≠ 'e') = true) :
      read (cs ++ 'e' :: (if leading < 0 then '-' else '+') :: Nat.toDigits 10 leading.natAbs) =
        readPointed cs * 10 ^ leading := by
    unfold read
    rw [List.takeWhile_append_of_pos before, List.takeWhile_cons_of_neg (by decide),
      List.append_nil, List.dropWhile_append_of_pos before,
      List.dropWhile_cons_of_neg (by decide), List.tail_cons, readExponent_mark]
  rcases digits with _ | ⟨digit, _ | ⟨second, more⟩⟩
  · change read ([] ++ _) = _
    rw [marked (held.apart 'e' rfl), held.readPointed_self, placed_mul_zpow]
    simp [placed]
  · change read ([digit] ++ _) = _
    rw [marked (held.apart 'e' rfl), held.readPointed_self, placed_mul_zpow]
    simp
  · have first : Numerals [digit] := held.take 1
    have after : Numerals (second :: more) := held.drop 1
    change read (([digit] ++ '.' :: second :: more) ++ _) = _
    rw [marked (first.unmarked after), first.readPointed_append after, placed_mul_zpow]
    simp

theorem read_text (d : Decimal) : read d.text = d.value := by
  rw [value_eq_placed]
  unfold text
  dsimp only
  split
  · exact read_positional (Numerals.significant d) _
  · exact read_scientific (Numerals.significant d) _

theorem mark_mem_text (d : Decimal) : '.' ∈ d.text ∨ 'e' ∈ d.text := by
  unfold text
  dsimp only
  split
  · left
    unfold positional
    split <;> simp
  · right
    unfold scientific
    dsimp only
    split <;> simp

end Decimal

end RelationQuery
