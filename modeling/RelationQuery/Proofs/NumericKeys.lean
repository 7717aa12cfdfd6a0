import RelationQuery.Proofs.Composite
import RelationQuery.Proofs.Doubles

/-! Numbers as keys. Main statement: two numbers are the same key just if they are equal in value
and, where one is an integer and the other a double, less than `Key.integralBound`. -/
namespace RelationQuery

namespace Number

def value : Number → ℚ
  | .integer value _ => value
  | .float value => value.value

def isFloat : Number → Bool
  | .integer _ _ => false
  | .float _ => true

/-- The numbers are equal in value. If only one of them is a double, they are so small that it is
written as an integer. -/
def SameKey (a b : Number) : Prop :=
  a.value = b.value ∧ (a.isFloat = b.isFloat ∨ |a.value| < Key.integralBound)

instance (a b : Number) : Decidable (SameKey a b) :=
  inferInstanceAs (Decidable (_ ∧ (_ ∨ _)))

/-! ### Texts -/

theorem toList_toString_inj {i j : Int} (same : (toString i).toList = (toString j).toList) :
    i = j := by
  rw [toList_toString, toList_toString] at same
  obtain ⟨sign, digits⟩ :=
    Unsigned.signed_inj (.inl (Calm.toDigits _)) (.inl (Calm.toDigits _)) same
  have magnitude : i.natAbs = j.natAbs := by
    simpa using congrArg (Nat.ofDigitChars 10 · 0) digits
  rw [decide_eq_decide] at sign
  omega

theorem toList_toString_ne_text {i : Int} {x : Binary64} (h : x.mantissa ≠ 0) :
    (toString i).toList ≠ x.text := by
  intro same
  rw [toList_toString, Binary64.text_eq h] at same
  obtain ⟨_, digits⟩ :=
    Unsigned.signed_inj (.inl (Calm.toDigits _)) (Unsigned.decimal _) same
  have no (mark : Char) (other : mark.isDigit = false) : mark ∉ x.shortest.text := by
    intro member
    rw [← digits] at member
    rw [Nat.isDigit_of_mem_toDigits (by decide) (by decide) member] at other
    cases other
  rcases x.shortest.mark_mem_text with point | exponent
  · exact no '.' rfl point
  · exact no 'e' rfl exponent

structure Whole (n : Number) (i : Int) : Prop where
  value : n.value = i
  small : n.isFloat = true → |n.value| < Key.integralBound
  text : Key.numberText n = (toString i).toList

structure Exact (n : Number) (x : Binary64) : Prop where
  same : n = .float x
  large (i : Int) : x.value = i → (Key.integralBound : ℚ) ≤ |x.value|
  text : Key.numberText n = x.text

theorem abs_intCast_lt_iff {i : Int} {bound : Nat} : |(i : ℚ)| < bound ↔ i.natAbs < bound := by
  rw [← Int.cast_abs, ← Nat.cast_natAbs, Nat.cast_lt]

theorem whole_or_exact (n : Number) : (∃ i, n.Whole i) ∨ ∃ x, n.Exact x := by
  cases n with
  | integer i fits => exact .inl ⟨i, rfl, nofun, rfl⟩
  | float x =>
    cases found : x.integral? with
    | none =>
      refine .inr ⟨x, rfl, fun i same => ?_, ?_⟩
      · rw [Binary64.integral?_eq_some_iff.2 same] at found
        cases found
      · simp only [Key.numberText, found]
    | some i =>
      have same := Binary64.integral?_eq_some_iff.1 found
      by_cases small : i.natAbs < Key.integralBound
      · refine .inl ⟨i, same, fun _ => ?_, ?_⟩
        · rw [value, same]
          exact abs_intCast_lt_iff.2 small
        · simp only [Key.numberText, found, if_pos small]
      · refine .inr ⟨x, rfl, fun _ _ => ?_, ?_⟩
        · rw [same]
          exact not_lt.1 (mt abs_intCast_lt_iff.1 small)
        · simp only [Key.numberText, found, if_neg small]

variable {a b : Number} {i j : Int} {x y : Binary64}

theorem Exact.mantissa_ne_zero (h : a.Exact x) : x.mantissa ≠ 0 := by
  intro zero
  have vanishes := Binary64.value_eq_zero zero
  have bound := h.large 0 (by rw [vanishes, Int.cast_zero])
  rw [vanishes, abs_zero] at bound
  exact absurd bound (by decide)

/-! ### Comparing keys -/

theorem SameKey.symm (h : a.SameKey b) : b.SameKey a := by
  obtain ⟨same, near⟩ := h
  rw [same] at near
  exact ⟨same.symm, near.imp_left Eq.symm⟩

theorem Whole.sameKey_iff (first : a.Whole i) (second : b.Whole j) : a.SameKey b ↔ i = j := by
  unfold SameKey
  rw [first.value, second.value, Int.cast_inj]
  apply and_iff_left_of_imp
  rintro rfl
  cases one : a.isFloat with
  | true => exact .inr (first.value ▸ first.small one)
  | false =>
    cases other : b.isFloat with
    | true => exact .inr (second.value ▸ second.small other)
    | false => exact .inl rfl

theorem Exact.sameKey_iff (first : a.Exact x) (second : b.Exact y) : a.SameKey b ↔ x = y := by
  have nonzero := first.mantissa_ne_zero
  obtain ⟨rfl, _, _⟩ := first
  obtain ⟨rfl, _, _⟩ := second
  constructor
  · rintro ⟨same, _⟩
    exact Binary64.eq_of_value_eq nonzero same
  · rintro rfl
    exact ⟨rfl, .inl rfl⟩

theorem Whole.not_sameKey (first : a.Whole i) (second : b.Exact x) : ¬a.SameKey b := by
  rintro ⟨same, near⟩
  obtain ⟨rfl, large, _⟩ := second
  have bound : (Key.integralBound : ℚ) ≤ |a.value| := by
    rw [same]
    exact large i (same.symm.trans first.value)
  rcases near with kind | small
  · exact (first.small kind).not_ge bound
  · exact small.not_ge bound

theorem numberText_eq_iff : Key.numberText a = Key.numberText b ↔ a.SameKey b := by
  rcases a.whole_or_exact with ⟨i, first⟩ | ⟨x, first⟩ <;>
    rcases b.whole_or_exact with ⟨j, second⟩ | ⟨y, second⟩ <;> rw [first.text, second.text]
  · rw [first.sameKey_iff second]
    exact ⟨toList_toString_inj, fun same => by rw [same]⟩
  · exact iff_of_false (toList_toString_ne_text second.mantissa_ne_zero) (first.not_sameKey second)
  · exact iff_of_false (toList_toString_ne_text first.mantissa_ne_zero).symm
      fun same => second.not_sameKey first same.symm
  · rw [first.sameKey_iff second]
    exact ⟨Binary64.eq_of_text_eq first.mantissa_ne_zero second.mantissa_ne_zero,
      fun same => by rw [same]⟩

end Number

namespace Relation

open Number

/-- Numbers are written alike as keys just if they are the same key. Where every fetched key is a
number, a row keyed by a number gets the rows keyed by the same key. -/
theorem joinRows_of_numbers (a : Number) :
    (∀ b, Key.text [.number a] = Key.text [.number b] ↔ a.SameKey b) ∧
      ∀ (config : Config) (relation : Relation) (row : Row) (fetched : List Row)
        (number : Row → Number),
        KeyName.readAll (relation.ownNames config) row = some [.number a] →
        (∀ child ∈ fetched,
          KeyName.readAll (relation.foreignNames config) child = some [.number (number child)]) →
        relation.joinRows config [row] fetched =
          [Fields.put relation.label
            (gather relation.cardinality (fetched.filter fun child => a.SameKey (number child)))
            row] := by
  have texts (b : Number) : Key.text [.number a] = Key.text [.number b] ↔ a.SameKey b := by
    rw [Key.text_singleton, Key.text_singleton, String.ofList_inj]
    exact numberText_eq_iff
  refine ⟨texts, ?_⟩
  intro config relation row fetched number own foreign
  have key : keyText? (relation.ownNames config) row = some (Key.text [.number a]) := by
    rw [keyText?, own, Option.map_some]
  have belongs : fetched.filter (Belongs config relation row) =
      fetched.filter fun child => a.SameKey (number child) := by
    rw [filter_belongs_of_some fetched key]
    apply List.filter_congr
    intro child member
    rw [keyText?, foreign child member, Option.map_some, decide_eq_decide, Option.some_inj]
    exact eq_comm.trans (texts (number child))
  rw [joinRows_eq_nestedLoop, nestedLoop, List.map_singleton, belongs]

def ordersByUser : Relation where
  link := {
    target := "orders", label := none, foreign := ["user_id"], own := ["id"]
    refinement := none }
  cardinality := .many
  label := "orders"

def userOf (number : Number) : Row := [("id", .number number)]

def orderOf (number : Number) : Row := [("user_id", .number number)]

def userNumber : Row → Number
  | [(_, .number value)] => value
  | _ => .float (Binary64.zero false)

def greatest : Number := .integer 8999999999999999 (by decide)

def greatestDouble : Number :=
  .float ⟨false, 8999999999999999, 1074, by decide, by decide, by decide⟩

def boundInteger : Number := .integer 9000000000000000 (by decide)

def boundDouble : Number :=
  .float ⟨false, 9000000000000000, 1074, by decide, by decide, by decide⟩

theorem ordersByUser_joinRows_of_numbers :
    KeyName.readAll (ordersByUser.ownNames {}) (userOf greatest) = some [.number greatest] ∧
      (∀ child ∈ [orderOf greatestDouble, orderOf boundDouble],
        KeyName.readAll (ordersByUser.foreignNames {}) child =
          some [.number (userNumber child)]) ∧
      Key.text [.number greatest] = Key.text [.number greatestDouble] ∧
      ordersByUser.joinRows {} [userOf greatest] [orderOf greatestDouble, orderOf boundDouble] =
        [Fields.put "orders" (gather .many [orderOf greatestDouble]) (userOf greatest)] := by
  obtain ⟨texts, joins⟩ := joinRows_of_numbers greatest
  have own : KeyName.readAll (ordersByUser.ownNames {}) (userOf greatest) =
      some [.number greatest] := rfl
  have foreign : ∀ child ∈ [orderOf greatestDouble, orderOf boundDouble],
      KeyName.readAll (ordersByUser.foreignNames {}) child =
        some [.number (userNumber child)] := by
    rintro child (_ | ⟨_, _ | ⟨_, ⟨⟩⟩⟩) <;> rfl
  have same : greatest.SameKey (userNumber (orderOf greatestDouble)) := by decide +kernel
  have other : ¬greatest.SameKey (userNumber (orderOf boundDouble)) := by decide +kernel
  refine ⟨own, foreign, (texts greatestDouble).2 same, ?_⟩
  rw [joins {} ordersByUser (userOf greatest) _ userNumber own foreign]
  simp only [List.filter_cons, same, other, decide_true, decide_false, List.filter_nil]
  rfl

/-- At the bound an integer and the double equal to it are written differently, and rows do not
meet by them. -/
theorem bound_text_ne :
    boundInteger.value = boundDouble.value ∧
      Key.text [.number boundInteger] ≠ Key.text [.number boundDouble] ∧
      ¬Belongs {} ordersByUser (userOf boundInteger) (orderOf boundDouble) := by
  refine ⟨?_, by decide +kernel, by decide +kernel⟩
  exact (Binary64.integral?_eq_some_iff.1 (by decide +kernel)).symm

end Relation

end RelationQuery
