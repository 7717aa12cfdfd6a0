import Mathlib.Data.List.Perm.Basic
import RelationQuery.Proofs.Nesting

/-! Places reserved in a clause. Main statement: filling them in any order comes to the clause with
everything in place. -/
namespace RelationQuery

def Entry.slot? : Entry Place → Option Nat
  | .item _ (.reserved slot) => some slot
  | _ => none

namespace Clause

def slots (clause : Clause Place) : List Nat := clause.filterMap Entry.slot?

@[simp] theorem slots_append (first second : Clause Place) :
    slots (first ++ second) = slots first ++ slots second := List.filterMap_append

@[simp] theorem slots_add_ready (clause : Clause Place) (connective : Connective)
    (condition : Condition) : slots (clause.add connective (.ready condition)) = slots clause :=
  (slots_append clause _).trans (List.append_nil _)

@[simp] theorem slots_add_reserved (clause : Clause Place) (connective : Connective)
    (slot : Nat) : slots (clause.add connective (.reserved slot)) = slots clause ++ [slot] :=
  slots_append clause _

@[simp] theorem slots_openGroup (clause : Clause Place) (connective : Connective)
    (negated : Bool) : slots (clause.openGroup connective negated) = slots clause :=
  (slots_append clause _).trans (List.append_nil _)

@[simp] theorem slots_closeGroup (clause : Clause Place) :
    slots clause.closeGroup = slots clause := by
  unfold closeGroup
  split
  · next opens =>
    cases last : clause.getLast? with
    | none => simp [last] at opens
    | some entry =>
      have split := List.dropLast_append_getLast? entry last
      rw [last] at opens
      cases entry with
      | opening connective negated =>
        rw [← split, slots_append, List.dropLast_concat]
        simp [slots, Entry.slot?]
      | item | closing => simp [Entry.isOpening] at opens
  · simp [slots, Entry.slot?]

theorem map_closeGroup {α β : Type} (f : α → β) (clause : Clause α) :
    clause.closeGroup.map (Entry.map f) = closeGroup (clause.map (Entry.map f)) := by
  have same : (clause.getLast?.map (Entry.map f)).any Entry.isOpening =
      clause.getLast?.any Entry.isOpening := by
    cases clause.getLast? with
    | none => rfl
    | some entry => cases entry <;> rfl
  unfold closeGroup
  rw [List.getLast?_map, same]
  split
  · rw [List.map_dropLast]
  · rw [List.map_append]
    rfl

theorem perm_slots_of_fill? {slot : Nat} {condition : Condition} {clause filled : Clause Place}
    (h : fill? slot condition clause = some filled) :
    (slots clause).Perm (slot :: slots filled) := by
  obtain ⟨front, connective, back, rfl, rfl⟩ := exists_of_fill? h
  simp only [slots_append]
  exact List.perm_middle

theorem exists_fill? {clause : Clause Place} {slot : Nat} (h : slot ∈ slots clause)
    (condition : Condition) : ∃ filled, fill? slot condition clause = some filled ∧
      (slots clause).Perm (slot :: slots filled) := by
  obtain ⟨filled, found⟩ : ∃ filled, fill? slot condition clause = some filled := by
    induction clause with
    | nil => cases h
    | cons entry rest ih =>
      have later (more : slot ∈ slots rest) : ∃ filled,
          (fill? slot condition rest).map (entry :: ·) = some filled := by
        obtain ⟨filled, found⟩ := ih more
        exact ⟨entry :: filled, by rw [found]; rfl⟩
      rcases entry with ⟨connective, held | other⟩ | ⟨connective, negated⟩ | _
      · exact later (by simpa [slots, Entry.slot?] using h)
      · rw [fill?]
        split
        · exact ⟨_, rfl⟩
        · next differs =>
          refine later ?_
          simp only [slots, Entry.slot?, List.filterMap_cons, List.mem_cons] at h
          exact h.resolve_left (Ne.symm differs)
      · exact later (by simpa [slots, Entry.slot?] using h)
      · exact later (by simpa [slots, Entry.slot?] using h)
  exact ⟨filled, found, perm_slots_of_fill? found⟩

end Clause

def Place.complete (meant : Nat → Condition) : Place → Place
  | .ready condition => .ready condition
  | .reserved slot => .ready (meant slot)

/-- The clause with everything in place. -/
def Clause.complete (meant : Nat → Condition) (clause : Clause Place) : Clause Place :=
  clause.map (Entry.map (Place.complete meant))

namespace Clause

variable {meant : Nat → Condition}

theorem complete_of_fill? {clause filled : Clause Place} {slot : Nat}
    (h : fill? slot (meant slot) clause = some filled) :
    complete meant filled = complete meant clause := by
  obtain ⟨front, connective, back, rfl, rfl⟩ := exists_of_fill? h
  simp [complete, Entry.map, Place.complete]

theorem complete_congr {other : Nat → Condition} {clause : Clause Place}
    (h : ∀ slot ∈ slots clause, meant slot = other slot) :
    complete meant clause = complete other clause := by
  apply List.map_congr_left
  intro entry member
  rcases entry with ⟨connective, condition | slot⟩ | _ | _
  · rfl
  · have reserved : slot ∈ slots clause := List.mem_filterMap.2 ⟨_, member, rfl⟩
    simp [Entry.map, Place.complete, h slot reserved]
  · rfl
  · rfl

theorem complete_of_slots {clause : Clause Place} (h : slots clause = []) :
    complete meant clause = clause := by
  unfold complete
  conv_rhs => rw [← List.map_id clause]
  apply List.map_congr_left
  intro entry member
  rcases entry with ⟨connective, condition | slot⟩ | _ | _
  · rfl
  · have reserved : slot ∈ slots clause := List.mem_filterMap.2 ⟨_, member, rfl⟩
    rw [h] at reserved
    cases reserved
  · rfl
  · rfl

end Clause

end RelationQuery
