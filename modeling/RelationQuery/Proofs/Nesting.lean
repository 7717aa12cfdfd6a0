import Mathlib.Data.List.Basic
import RelationQuery.Proofs.Token
import RelationQuery.Statement

/-! The groups of a clause. Main statement: what is done to a statement keeps them within each
other. -/
namespace RelationQuery

namespace Entry

def nest {α : Type} (depth : Nat) : Entry α → Option Nat
  | .item .. => some depth
  | .opening .. => some (depth + 1)
  | .closing => if depth = 0 then none else some (depth - 1)

theorem nest_add {α : Type} {depth after : Nat} {entry : Entry α}
    (h : nest depth entry = some after) (n : Nat) : nest (depth + n) entry = some (after + n) := by
  cases entry with
  | item =>
    cases h
    rfl
  | opening =>
    cases h
    rw [nest, Nat.add_right_comm]
  | closing =>
    cases depth with
    | zero => cases h
    | succ depth =>
      cases h
      rw [Nat.add_right_comm]
      rfl

end Entry

namespace Clause

/-- How many groups are open behind a clause, unless one ends that is not open. -/
def nesting {α : Type} (depth : Nat) (clause : Clause α) : Option Nat :=
  clause.foldlM Entry.nest depth

theorem nesting_map {α β : Type} (f : α → β) (depth : Nat) (clause : Clause α) :
    nesting depth (clause.map (Entry.map f)) = nesting depth clause := by
  unfold nesting
  induction clause generalizing depth with
  | nil => rfl
  | cons entry rest ih =>
    rw [List.map_cons, List.foldlM_cons, List.foldlM_cons]
    cases entry <;> simp [Entry.map, Entry.nest, ih]

theorem nesting_append {α : Type} (depth : Nat) (front back : Clause α) :
    nesting depth (front ++ back) = (nesting depth front).bind (nesting · back) := by
  unfold nesting
  rw [List.foldlM_append]
  rfl

theorem nesting_add {α : Type} {depth after : Nat} {clause : Clause α}
    (h : nesting depth clause = some after) (n : Nat) :
    nesting (depth + n) clause = some (after + n) :=
  Token.foldlM_add (fun _ _ _ one => Entry.nest_add one n) h

theorem nesting_group {α : Type} {clause : Clause α} {depth after : Nat}
    (h : nesting (depth + 1) clause = some (after + 1)) (connective : Connective)
    (negated : Bool) :
    nesting depth (.opening connective negated :: (clause ++ [.closing])) = some after := by
  change nesting (depth + 1) (clause ++ [.closing]) = some after
  rw [nesting_append, h]
  rfl

theorem nesting_flatMap {α β : Type} {f : β → Clause α} {depth : Nat} {xs : List β}
    (h : ∀ x ∈ xs, nesting depth (f x) = some depth) :
    nesting depth (xs.flatMap f) = some depth := by
  induction xs with
  | nil => rfl
  | cons x rest ih =>
    rw [List.flatMap_cons, nesting_append, h x List.mem_cons_self]
    exact ih fun x member => h x (List.mem_cons_of_mem _ member)

theorem nesting_behind {α : Type} {clause lead : Clause α} {depth : Nat}
    (first : nesting 0 lead = some 0) (second : nesting 0 clause = some depth) :
    nesting 0 (clause.behind lead) = some depth := by
  unfold behind
  split
  · next bare =>
    rw [List.isEmpty_iff.1 bare] at second
    cases second
    exact first
  · rw [nesting_append, first]
    exact nesting_group (nesting_add second 1) .and false

theorem nesting_closeGroup {α : Type} {clause : Clause α} {depth : Nat}
    (h : nesting 0 clause = some (depth + 1)) : nesting 0 clause.closeGroup = some depth := by
  unfold closeGroup
  split
  · next opens =>
    cases last : clause.getLast? with
    | none => simp [last] at opens
    | some entry =>
      have split := List.dropLast_append_getLast? entry last
      rw [last] at opens
      rw [← split, nesting_append] at h
      cases entry with
      | opening connective negated =>
        obtain ⟨before, inner, outer⟩ := Option.bind_eq_some_iff.1 h
        rw [inner]
        simpa [nesting, Entry.nest] using outer
      | item | closing => simp [Entry.isOpening] at opens
  · rw [nesting_append, h]
    rfl

theorem nesting_of_items {α : Type} {clause : Clause α}
    (items : ∀ entry ∈ clause, ∃ connective content, entry = .item connective content)
    (depth : Nat) : nesting depth clause = some depth := by
  unfold nesting
  induction clause with
  | nil => rfl
  | cons entry rest ih =>
    obtain ⟨connective, content, rfl⟩ := items entry List.mem_cons_self
    rw [List.foldlM_cons]
    exact ih fun entry member => items entry (List.mem_cons_of_mem _ member)

theorem exists_of_fill? {slot : Nat} {condition : Condition} {clause filled : Clause Place}
    (h : fill? slot condition clause = some filled) :
    ∃ front connective back, clause = front ++ .item connective (.reserved slot) :: back ∧
      filled = front ++ .item connective (.ready condition) :: back := by
  induction clause generalizing filled with
  | nil => cases h
  | cons entry rest ih =>
    have later (more : (fill? slot condition rest).map (entry :: ·) = some filled) :
        ∃ front connective back,
          entry :: rest = front ++ .item connective (.reserved slot) :: back ∧
          filled = front ++ .item connective (.ready condition) :: back := by
      obtain ⟨_, found, rfl⟩ := Option.map_eq_some_iff.1 more
      obtain ⟨front, connective, back, rfl, rfl⟩ := ih found
      exact ⟨entry :: front, connective, back, rfl, rfl⟩
    rcases entry with ⟨connective, condition | other⟩ | ⟨connective, negated⟩ | _
    · exact later h
    · rw [fill?] at h
      split at h
      · next here =>
        cases h
        exact ⟨[], connective, rest, by rw [here]; rfl, rfl⟩
      · exact later h
    · exact later h
    · exact later h

theorem nesting_fill? {slot : Nat} {condition : Condition} {clause filled : Clause Place}
    (h : fill? slot condition clause = some filled) (depth : Nat) :
    nesting depth filled = nesting depth clause := by
  obtain ⟨front, connective, back, rfl, rfl⟩ := exists_of_fill? h
  rw [nesting_append, nesting_append]
  rfl

end Clause

theorem Statement.exists_of_fill {s filled : Statement} {slot : Nat} {condition : Condition}
    (h : s.fill slot condition = .ok filled) :
    ∃ conditions, s.conditions.fill? slot condition = some conditions ∧
      filled = { s with conditions } := by
  unfold fill at h
  split at h
  · next conditions found =>
    cases h
    exact ⟨conditions, found, rfl⟩
  · cases h

end RelationQuery
