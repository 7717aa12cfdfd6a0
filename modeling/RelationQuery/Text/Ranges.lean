/-! Sets of code points, given as ascending ranges. -/
namespace RelationQuery.Text

abbrev Ranges := List (Nat × Nat)

namespace Ranges

/-- Whether a code point lies in a range. The search ends at the first range beyond it. -/
def covers : Ranges → Nat → Bool
  | [], _ => false
  | (first, last) :: rest, code => first ≤ code && (code ≤ last || covers rest code)

def ascendsFrom (start : Nat) : Ranges → Bool
  | [] => true
  | (first, last) :: rest => start ≤ first && first ≤ last && ascendsFrom (last + 1) rest

theorem le_of_ascendsFrom {start : Nat} {ranges : Ranges} (h : ascendsFrom start ranges)
    {range : Nat × Nat} (hmem : range ∈ ranges) : start ≤ range.1 := by
  induction ranges generalizing start with
  | nil => cases hmem
  | cons head rest ih =>
    obtain ⟨first, last⟩ := head
    simp only [ascendsFrom, Bool.and_eq_true, decide_eq_true_eq] at h
    rcases List.mem_cons.1 hmem with rfl | hmem
    · exact h.1.1
    · have := ih h.2 hmem
      omega

theorem covers_iff {start : Nat} {ranges : Ranges} (h : ascendsFrom start ranges) (code : Nat) :
    ranges.covers code ↔ ∃ range ∈ ranges, range.1 ≤ code ∧ code ≤ range.2 := by
  induction ranges generalizing start with
  | nil => simp [covers]
  | cons head rest ih =>
    obtain ⟨first, last⟩ := head
    simp only [ascendsFrom, Bool.and_eq_true, decide_eq_true_eq] at h
    simp only [covers, Bool.and_eq_true, Bool.or_eq_true, decide_eq_true_eq, ih h.2,
      List.mem_cons, or_and_right, exists_or, exists_eq_left]
    constructor
    · rintro ⟨hfirst, hlast | hrest⟩
      · exact .inl ⟨hfirst, hlast⟩
      · exact .inr hrest
    · rintro (⟨hfirst, hlast⟩ | ⟨range, hmem, hrange⟩)
      · exact ⟨hfirst, .inl hlast⟩
      · have := le_of_ascendsFrom h.2 hmem
        exact ⟨by omega, .inr ⟨range, hmem, hrange⟩⟩

end Ranges

end RelationQuery.Text
