/-! Computations that succeed, taken apart into the steps that did. -/
namespace RelationQuery.Outcome

variable {ε α β : Type}

@[simp] theorem ok_bind (a : α) (next : α → Except ε β) : Except.ok a >>= next = next a := rfl

@[simp] theorem error_bind (error : ε) (next : α → Except ε β) :
    Except.error error >>= next = .error error := rfl

theorem exists_of_bind {first : Except ε α} {next : α → Except ε β} {b : β}
    (h : first >>= next = .ok b) : ∃ a, first = .ok a ∧ next a = .ok b := by
  cases first with
  | error error => cases h
  | ok a => exact ⟨a, rfl, h⟩

theorem of_check {check : Prop} [Decidable check] {error : ε} {next : PUnit → Except ε β} {b : β}
    (h : (if check then throw error >>= next else next ⟨⟩) = .ok b) :
    ¬check ∧ next ⟨⟩ = .ok b := by
  split at h
  · cases h
  · next passed => exact ⟨passed, h⟩

theorem exists_of_map {first : Except ε α} {f : α → β} {b : β} (h : first.map f = .ok b) :
    ∃ a, first = .ok a ∧ f a = b := by
  cases first with
  | error error => cases h
  | ok a => exact ⟨a, rfl, Except.ok.inj h⟩

theorem ok_of_mapError {ε' : Type} {first : Except ε α} {f : ε → ε'} {a : α}
    (h : first.mapError f = .ok a) : first = .ok a := by
  cases first with
  | error error => cases h
  | ok b =>
    cases h
    rfl

theorem ok_of_toOption {result : Except ε α} {a : α} (h : result.toOption = some a) :
    result = .ok a := by
  cases result with
  | error error => cases h
  | ok b =>
    cases h
    rfl

theorem exists_of_mapM {f : α → Except ε β} {xs : List α} {ys : List β} (h : xs.mapM f = .ok ys) :
    ∀ y ∈ ys, ∃ x ∈ xs, f x = .ok y := by
  induction xs generalizing ys with
  | nil =>
    cases h
    exact nofun
  | cons x rest ih =>
    rw [List.mapM_cons] at h
    obtain ⟨first, here, h⟩ := exists_of_bind h
    obtain ⟨more, later, h⟩ := exists_of_bind h
    cases h
    intro y member
    rcases List.mem_cons.1 member with rfl | member
    · exact ⟨x, List.mem_cons_self, here⟩
    · obtain ⟨other, found, eq⟩ := ih later y member
      exact ⟨other, List.mem_cons_of_mem _ found, eq⟩

theorem of_foldlM {f : β → α → Except ε β} {P : β → Prop} {xs : List α} {start last : β}
    (h : xs.foldlM f start = .ok last) (begins : P start)
    (keeps : ∀ x ∈ xs, ∀ state next, P state → f state x = .ok next → P next) : P last := by
  induction xs generalizing start with
  | nil =>
    cases h
    exact begins
  | cons x rest ih =>
    rw [List.foldlM_cons] at h
    obtain ⟨next, here, h⟩ := exists_of_bind h
    exact ih h (keeps x List.mem_cons_self start next begins here)
      fun x member => keeps x (List.mem_cons_of_mem _ member)

end RelationQuery.Outcome
