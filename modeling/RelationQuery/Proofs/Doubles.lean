import Mathlib.Tactic.FieldSimp
import Mathlib.Tactic.Linarith
import RelationQuery.Proofs.Decimals
import RelationQuery.Proofs.Quoting

/-! The texts of doubles. Main statement: doubles other than zero that are spelt alike are the
same. -/
namespace RelationQuery

namespace Unsigned

variable {front back : List Char}

theorem ne_minus (h : Unsigned front) (rest : List Char) : front ≠ '-' :: rest := by
  rintro rfl
  have no {cs : List Char} (calm : Calm ('-' :: cs)) : False :=
    (calm.ordinary '-' List.mem_cons_self).2 (by decide)
  rcases h with calm | ⟨front, back, same, calm, _, marked⟩
  · exact no calm
  · cases front with
    | nil => exact marked rfl
    | cons c front =>
      obtain ⟨rfl, _⟩ := List.cons.inj same
      exact no calm

theorem signed_inj (first : Unsigned front) (second : Unsigned back) {sign other : Bool}
    (same : (if sign then ['-'] else []) ++ front = (if other then ['-'] else []) ++ back) :
    sign = other ∧ front = back := by
  cases sign with
  | true =>
    cases other with
    | true => exact ⟨rfl, List.tail_eq_of_cons_eq same⟩
    | false => exact absurd same.symm (second.ne_minus front)
  | false =>
    cases other with
    | true => exact absurd same (first.ne_minus back)
    | false => exact ⟨rfl, same⟩

end Unsigned

namespace Binary64

variable {x y : Binary64}

/-! ### The reals that round to a double

They are measured in quarters of `2 ^ -1074`, which makes the ends whole numbers. -/

def low (x : Binary64) : Nat := (4 * x.mantissa - x.gapBelow) * 2 ^ x.scale

def high (x : Binary64) : Nat := (4 * x.mantissa + 2) * 2 ^ x.scale

/-- What rounds to the magnitude. The ends belong to the even mantissa. -/
def Attracts (x : Binary64) (quarters : ℚ) : Prop :=
  if x.mantissa % 2 = 0 then x.low ≤ quarters ∧ quarters ≤ x.high
  else x.low < quarters ∧ quarters < x.high

theorem Attracts.bounds {quarters : ℚ} (h : x.Attracts quarters) :
    x.low ≤ quarters ∧ quarters ≤ x.high := by
  unfold Attracts at h
  split at h
  · exact h
  · exact ⟨h.1.le, h.2.le⟩

theorem units_eq (x : Binary64) : x.units = x.mantissa * 2 ^ x.scale := Nat.shiftLeft_eq ..

theorem gapBelow_pos (x : Binary64) : 0 < x.gapBelow := by
  unfold gapBelow
  split <;> decide

theorem gapBelow_le (x : Binary64) : x.gapBelow ≤ 2 := by
  unfold gapBelow
  split <;> decide

theorem low_of_scale_pos (x : Binary64) (h : 0 < x.scale) :
    0x40000000000000 - 1 ≤ 4 * x.mantissa - x.gapBelow := by
  have normal : 0x10000000000000 ≤ x.mantissa := x.normal.resolve_right (by omega)
  unfold gapBelow
  split <;> omega

theorem units_lt_of_scale_lt (h : x.scale < y.scale) : x.units < y.units := by
  have normal : 0x10000000000000 ≤ y.mantissa := y.normal.resolve_right (by omega)
  obtain ⟨more, apart⟩ : ∃ more, y.scale = x.scale + 1 + more := ⟨y.scale - x.scale - 1, by omega⟩
  calc x.units = x.mantissa * 2 ^ x.scale := x.units_eq
    _ < 2 * y.mantissa * 2 ^ x.scale := by
        have := x.mantissa_lt
        exact Nat.mul_lt_mul_of_pos_right (by omega) (Nat.two_pow_pos _)
    _ = y.mantissa * 2 ^ (x.scale + 1) := by
        rw [Nat.pow_succ', Nat.mul_comm 2, Nat.mul_assoc]
    _ ≤ y.mantissa * 2 ^ y.scale :=
        Nat.mul_le_mul_left _ (Nat.pow_le_pow_right (by decide) (by omega))
    _ = y.units := y.units_eq.symm

theorem eq_of_units_eq (sign : x.negative = y.negative) (same : x.units = y.units) : x = y := by
  have scale : x.scale = y.scale := by
    rcases Nat.lt_trichotomy x.scale y.scale with less | equal | more
    · exact absurd same (units_lt_of_scale_lt less).ne
    · exact equal
    · exact absurd same (units_lt_of_scale_lt more).ne'
  have mantissa : x.mantissa = y.mantissa := by
    rw [units_eq, units_eq, scale] at same
    exact Nat.eq_of_mul_eq_mul_right (Nat.two_pow_pos _) same
  cases x
  cases y
  simp_all

/-- What rounds to the smaller magnitude is no greater than what rounds to the greater one. They
meet at most halfway, and one of the neighbours is odd. -/
theorem high_le_low (h : x.units < y.units) :
    x.high ≤ y.low ∧ (x.high = y.low → ¬(x.mantissa % 2 = 0 ∧ y.mantissa % 2 = 0)) := by
  have positive : 0 < 2 ^ x.scale := Nat.two_pow_pos _
  have gap := y.gapBelow_le
  suffices common : ∃ low, y.low = low * 2 ^ x.scale ∧ 4 * x.mantissa + 2 ≤ low ∧
      (4 * x.mantissa + 2 = low → ¬(x.mantissa % 2 = 0 ∧ y.mantissa % 2 = 0)) by
    obtain ⟨low, scaled, least, odd⟩ := common
    rw [scaled, high]
    exact ⟨Nat.mul_le_mul_right _ least, fun meet => odd (Nat.eq_of_mul_eq_mul_right positive meet)⟩
  rcases Nat.lt_trichotomy x.scale y.scale with less | equal | more
  · obtain ⟨more, apart⟩ : ∃ more, y.scale = 1 + more + x.scale :=
      ⟨y.scale - x.scale - 1, by omega⟩
    -- In the scale of `x` the lower end of `y` lies at or above that of the greatest mantissa.
    have bound := x.mantissa_lt
    have wide := y.low_of_scale_pos (by omega)
    have grows : (4 * y.mantissa - y.gapBelow) * 2 ≤
        (4 * y.mantissa - y.gapBelow) * 2 ^ (1 + more) :=
      Nat.mul_le_mul_left _ (Nat.le_self_pow (by omega) 2)
    refine ⟨(4 * y.mantissa - y.gapBelow) * 2 ^ (1 + more), ?_, by omega, by omega⟩
    rw [low, apart, pow_add 2 (1 + more), mul_assoc]
  · have less : x.mantissa < y.mantissa := by
      rw [units_eq, units_eq, ← equal] at h
      exact Nat.lt_of_mul_lt_mul_right h
    exact ⟨4 * y.mantissa - y.gapBelow, by rw [low, equal], by omega, by omega⟩
  · exact absurd h (units_lt_of_scale_lt more).not_gt

theorem units_eq_of_attracts {quarters : ℚ} (first : x.Attracts quarters)
    (second : y.Attracts quarters) : x.units = y.units := by
  have apart {x y : Binary64} (first : x.Attracts quarters) (second : y.Attracts quarters) :
      ¬x.units < y.units := by
    intro less
    obtain ⟨meets, odd⟩ := high_le_low less
    have meets : (x.high : ℚ) ≤ y.low := by exact_mod_cast meets
    have above : quarters = x.high := by linarith [first.bounds.2, second.bounds.1]
    have below : quarters = y.low := by linarith [first.bounds.2, second.bounds.1]
    apply odd (by exact_mod_cast above.symm.trans below)
    constructor
    · by_contra ends
      rw [Attracts, if_neg ends] at first
      exact first.2.ne above
    · by_contra ends
      rw [Attracts, if_neg ends] at second
      exact second.1.ne' below
  exact Nat.le_antisymm (Nat.not_lt.1 (apart second first)) (Nat.not_lt.1 (apart first second))

/-! ### Shortest decimals -/

theorem covers_iff (x : Binary64) (d : Decimal) :
    x.covers d = true ↔ x.Attracts (d.value * 2 ^ 1076) := by
  unfold covers Attracts low high
  generalize 1076 = places
  have positive : (0 : ℚ) < 10 ^ (-d.exponent).toNat := by positivity
  have worth : (((d.digits * Nat.pow 10 d.exponent.toNat) <<< places : Nat) : ℚ) =
      d.value * 2 ^ places * 10 ^ (-d.exponent).toNat := by
    rw [mul_right_comm, d.value_mul_pow, Nat.shiftLeft_eq, Nat.pow_eq]
    push_cast
    rfl
  have scaled (quarters scale : Nat) :
      ((quarters <<< scale * Nat.pow 10 (-d.exponent).toNat : Nat) : ℚ) =
        (quarters * 2 ^ scale : Nat) * 10 ^ (-d.exponent).toNat := by
    rw [Nat.shiftLeft_eq, Nat.pow_eq]
    push_cast
    rfl
  dsimp only
  simp only [← @Nat.cast_le ℚ, ← @Nat.cast_lt ℚ, worth, scaled, mul_le_mul_iff_left₀ positive,
    mul_lt_mul_iff_left₀ positive]
  split <;> simp

theorem value_expansion (x : Binary64) : x.expansion.value * 2 ^ 1076 = 4 * x.units := by
  obtain ⟨places, known⟩ : ∃ places : Nat, 1074 = places := ⟨1074, rfl⟩
  have exponent : (1074 : Int) = places := by rw [← known, Nat.cast_ofNat]
  have quarters : 1076 = places + 2 := by omega
  have ten : (10 : ℚ) ^ places = 5 ^ places * 2 ^ places := by
    rw [← mul_pow]
    norm_num
  unfold expansion
  rw [known, quarters, exponent, Decimal.value, Nat.pow_eq, zpow_neg, zpow_natCast, ten, pow_add]
  push_cast
  field_simp
  norm_num

theorem covers_expansion (h : x.mantissa ≠ 0) : x.covers x.expansion = true := by
  have positive : 0 < 2 ^ x.scale := Nat.two_pow_pos _
  have gap := x.gapBelow_pos
  have below : x.low < 4 * x.units := by
    rw [low, units_eq, ← Nat.mul_assoc]
    exact Nat.mul_lt_mul_of_pos_right (by omega) positive
  have above : 4 * x.units < x.high := by
    rw [high, units_eq, ← Nat.mul_assoc]
    exact Nat.mul_lt_mul_of_pos_right (by omega) positive
  have below : (x.low : ℚ) < 4 * x.units := by exact_mod_cast below
  have above : 4 * x.units < (x.high : ℚ) := by exact_mod_cast above
  rw [covers_iff, value_expansion, Attracts]
  split
  · exact ⟨below.le, above.le⟩
  · exact ⟨below, above⟩

theorem covers_onGrid {place : Int} {d : Decimal} (h : x.onGrid? place = some d) :
    x.covers d = true := by
  unfold onGrid? at h
  exact List.find?_some h

theorem covers_shortest (h : x.mantissa ≠ 0) : x.covers x.shortest = true := by
  unfold shortest
  dsimp only
  cases found : (List.range 17).findSome? fun (more : Nat) =>
      x.onGrid? (leadingExponent x.units (1 <<< 1074) - more) with
  | none => exact covers_expansion h
  | some d =>
    obtain ⟨more, _, grid⟩ := List.exists_of_findSome?_eq_some found
    exact covers_onGrid grid

/-! ### Texts -/

theorem text_eq (h : x.mantissa ≠ 0) :
    x.text = (if x.negative then ['-'] else []) ++ x.shortest.text :=
  if_neg h

theorem eq_of_text_eq (first : x.mantissa ≠ 0) (second : y.mantissa ≠ 0)
    (same : x.text = y.text) : x = y := by
  rw [text_eq first, text_eq second] at same
  obtain ⟨sign, same⟩ := (Unsigned.decimal _).signed_inj (Unsigned.decimal _) same
  have value : x.shortest.value = y.shortest.value := by
    rw [← Decimal.read_text, ← Decimal.read_text, same]
  have covered := (covers_iff x _).1 (covers_shortest first)
  rw [value] at covered
  exact eq_of_units_eq sign
    (units_eq_of_attracts covered ((covers_iff y _).1 (covers_shortest second)))

/-! ### Values -/

/-- How many units make one. -/
@[irreducible] def unitsOfOne : Nat := 1 <<< 1074

theorem unitsOfOne_pos : 0 < unitsOfOne := by
  rw [unitsOfOne, Nat.one_shiftLeft]
  exact Nat.two_pow_pos 1074

def signedUnits (x : Binary64) : Int := if x.negative then -x.units else x.units

def value (x : Binary64) : ℚ := x.signedUnits / unitsOfOne

theorem value_eq_iff : x.value = y.value ↔ x.signedUnits = y.signedUnits := by
  have positive : (unitsOfOne : ℚ) ≠ 0 := by exact_mod_cast unitsOfOne_pos.ne'
  unfold value
  rw [div_left_inj' positive, Int.cast_inj]

theorem units_ne_zero (h : x.mantissa ≠ 0) : x.units ≠ 0 := by
  rw [units_eq]
  exact Nat.mul_ne_zero h (Nat.two_pow_pos _).ne'

theorem eq_of_value_eq (h : x.mantissa ≠ 0) (same : x.value = y.value) : x = y := by
  have held := units_ne_zero h
  rw [value_eq_iff] at same
  unfold signedUnits at same
  apply eq_of_units_eq
  · by_cases first : x.negative <;> by_cases second : y.negative <;> simp_all
  · split at same <;> split at same <;> omega

theorem value_eq_intCast_iff {i : Int} : x.value = i ↔ x.signedUnits = i * unitsOfOne := by
  have positive : (unitsOfOne : ℚ) ≠ 0 := by exact_mod_cast unitsOfOne_pos.ne'
  unfold value
  rw [div_eq_iff positive]
  norm_cast

theorem value_eq_zero (h : x.mantissa = 0) : x.value = 0 := by
  have zero : x.signedUnits = 0 := by simp [signedUnits, units_eq, h]
  exact_mod_cast value_eq_intCast_iff.2 (by rw [zero, zero_mul] : x.signedUnits = 0 * unitsOfOne)

theorem integral?_eq_some_iff {i : Int} : x.integral? = some i ↔ x.value = i := by
  have quotient : x.units >>> 1074 = x.units / unitsOfOne := by
    rw [unitsOfOne, Nat.one_shiftLeft, Nat.shiftRight_eq_div_pow]
  have positive := unitsOfOne_pos
  rw [value_eq_intCast_iff]
  unfold integral? signedUnits
  rw [quotient, ← unitsOfOne]
  generalize unitsOfOne = one at *
  by_cases whole : x.units % one = 0
  · obtain ⟨quotient, product⟩ := Nat.dvd_of_mod_eq_zero whole
    have cancel (i j : Int) : one * i = j * one ↔ i = j := by
      rw [mul_comm j, mul_right_inj' (by omega)]
    rw [if_pos whole, product, Nat.mul_div_cancel_left _ positive]
    cases x.negative with
    | true => simp [← cancel (-quotient) i]
    | false => simp [← cancel quotient i]
  · rw [if_neg whole]
    constructor
    · nofun
    · intro same
      have multiple : (one : Int) ∣ x.units := by
        split at same
        · exact Int.dvd_neg.1 ⟨i, by rw [same, mul_comm]⟩
        · exact ⟨i, by rw [same, mul_comm]⟩
      exact absurd (Nat.mod_eq_zero_of_dvd (Int.natCast_dvd_natCast.1 multiple)) whole

end Binary64

end RelationQuery
