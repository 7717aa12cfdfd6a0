/-! Values under names. Main statements: setting a field keeps the names ascending, and reading
it back gives what was set. -/
namespace RelationQuery

/-- Named values in the order of their names, each name once. -/
abbrev Fields (α : Type) := List (String × α)

namespace Fields

/-- Sets a field. Names are ordered by code point, as their bytes are. -/
def put {α : Type} (name : String) (value : α) : Fields α → Fields α
  | [] => [(name, value)]
  | (other, held) :: rest =>
    if name = other then (name, value) :: rest
    else if name < other then (name, value) :: (other, held) :: rest
    else (other, held) :: put name value rest

def ofList {α : Type} (pairs : List (String × α)) : Fields α :=
  pairs.foldl (fun fields (name, value) => put name value fields) []

def get? {α : Type} : Fields α → String → Option α
  | [], _ => none
  | (other, held) :: rest, name => if other = name then some held else get? rest name

def names {α : Type} (fields : Fields α) : List String := fields.map Prod.fst

def Ordered {α : Type} (fields : Fields α) : Prop := fields.names.Pairwise (· < ·)

@[simp] theorem get?_put_self {α : Type} (fields : Fields α) (name : String) (value : α) :
    get? (put name value fields) name = some value := by
  induction fields with
  | nil => simp [put, get?]
  | cons field rest ih =>
    obtain ⟨other, held⟩ := field
    by_cases same : name = other
    · simp [put, get?, same]
    · by_cases before : name < other <;> simp [put, get?, same, before, Ne.symm same, ih]

theorem get?_put_of_ne {α : Type} (fields : Fields α) {name sought : String} (value : α)
    (ne : name ≠ sought) : get? (put name value fields) sought = get? fields sought := by
  induction fields with
  | nil => simp [put, get?, ne]
  | cons field rest ih =>
    obtain ⟨other, held⟩ := field
    by_cases same : name = other
    · subst same; simp [put, get?, ne]
    · by_cases before : name < other <;> simp [put, get?, same, before, ne, ih]

theorem mem_names_put {α : Type} {fields : Fields α} {name sought : String} {value : α} :
    sought ∈ names (put name value fields) ↔ sought = name ∨ sought ∈ names fields := by
  induction fields with
  | nil => simp [put, names]
  | cons field rest ih =>
    obtain ⟨other, held⟩ := field
    simp only [names, List.mem_map] at ih
    by_cases same : name = other
    · subst same
      simp [put, names]
    · by_cases before : name < other
      · simp [put, names, same, before]
      · simp [put, names, same, before, ih]
        grind

theorem ordered_put {α : Type} {fields : Fields α} (name : String) (value : α)
    (h : fields.Ordered) : Ordered (put name value fields) := by
  induction fields with
  | nil => simp [put, Ordered, names]
  | cons field rest ih =>
    obtain ⟨other, held⟩ := field
    simp only [Ordered, names, List.map_cons, List.pairwise_cons] at h
    by_cases same : name = other
    · subst same
      simpa [put, Ordered, names] using h
    · by_cases before : name < other
      · simp only [put, same, before, if_true, if_false, Ordered, names, List.map_cons,
          List.pairwise_cons]
        refine ⟨?_, h⟩
        intro later member
        rcases List.mem_cons.1 member with rfl | member
        · exact before
        · exact String.lt_trans before (h.1 later member)
      · simp only [put, same, before, if_false, Ordered, names, List.map_cons,
          List.pairwise_cons]
        refine ⟨?_, ih h.2⟩
        intro later member
        rcases mem_names_put.1 member with rfl | member
        · exact Std.lt_of_le_of_ne (String.not_lt.1 before) (Ne.symm same)
        · exact h.1 later member

theorem ordered_ofList {α : Type} (pairs : List (String × α)) : Ordered (ofList pairs) := by
  suffices h : ∀ start : Fields α, start.Ordered →
      Ordered (pairs.foldl (fun fields (name, value) => put name value fields) start) from
    h [] (by simp [Ordered, names])
  induction pairs with
  | nil => exact fun _ h => h
  | cons pair rest ih => exact fun start h => ih _ (ordered_put pair.1 pair.2 h)

end Fields

end RelationQuery
