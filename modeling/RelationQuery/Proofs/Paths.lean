import RelationQuery.Proofs.Expression
import RelationQuery.Proofs.Reshaping

/-! Paths into rows, and what stands at them once a row is shaped. Main statement: above the cap a
shaped row holds what is reached without a reserved name, under the same path but that objects
numbered like a list are entered by number, and nothing else; from the cap on all is as it was. -/
namespace RelationQuery

namespace Fields

variable {α : Type}

def Numbered (fields : Fields α) : Prop :=
  0 < fields.length ∧ fields.names.Perm ((List.range fields.length).map toString)

instance (fields : Fields α) : Decidable fields.Numbered :=
  inferInstanceAs (Decidable (_ ∧ _))

theorem isIndexed_iff_numbered {fields : Fields α} :
    Shape.isIndexed fields = true ↔ fields.Numbered := by
  constructor
  · intro indexed
    refine ⟨?_, (Shape.names_perm_of_isIndexed indexed).symm⟩
    simp only [Shape.isIndexed, Bool.and_eq_true, Bool.not_eq_true', List.isEmpty_eq_false_iff]
      at indexed
    exact List.length_pos_iff.2 indexed.1
  · rintro ⟨held, names⟩
    have filled : List.isEmpty fields = false :=
      List.isEmpty_eq_false_iff.2 (List.length_pos_iff.1 held)
    simp only [Shape.isIndexed, filled, Bool.not_false, Bool.true_and, List.all_eq_true,
      List.contains_iff_mem]
    intro index inRange
    exact names.mem_iff.2 (List.mem_map_of_mem inRange)

theorem get?_map {β : Type} (f : α → β) (fields : Fields α) (name : String) :
    get? (fields.map fun field => (field.1, f field.2)) name = (get? fields name).map f := by
  induction fields with
  | nil => rfl
  | cons field rest ih =>
    obtain ⟨other, held⟩ := field
    by_cases same : other = name
    · simp [get?, same]
    · simp [get?, same, ih]

theorem get?_filter (keeps : String → Bool) (fields : Fields α) (name : String) :
    get? (fields.filter fun field => keeps field.1) name =
      if keeps name then get? fields name else none := by
  induction fields with
  | nil => simp [get?]
  | cons field rest ih =>
    obtain ⟨other, held⟩ := field
    by_cases same : other = name
    · subst same
      cases kept : keeps other with
      | true => simp [get?, kept]
      | false => simpa [get?, kept] using ih
    · cases kept : keeps other with
      | true => simpa [get?, kept, same] using ih
      | false => simpa [get?, kept, same] using ih

theorem mem_names_iff {fields : Fields α} {name : String} :
    name ∈ fields.names ↔ ∃ value, get? fields name = some value := by
  induction fields with
  | nil => simp [names, get?]
  | cons field rest ih =>
    obtain ⟨other, held⟩ := field
    by_cases same : other = name
    · simp [names, get?, same]
    · simpa [names, get?, same, Ne.symm same] using ih

end Fields

namespace Shape

theorem exists_get?_of_numbered {α : Type} {fields : Fields α} (h : fields.Numbered) {index : Nat}
    (inRange : index < fields.length) :
    ∃ value, Fields.get? fields (toString index) = some value := by
  rw [← Fields.mem_names_iff, h.2.mem_iff]
  exact List.mem_map_of_mem (List.mem_range.2 inRange)

theorem indexed_eq_map {fields : Fields Value} (h : fields.Numbered) :
    (indexed fields).map some =
      (List.range fields.length).map fun index => Fields.get? fields (toString index) := by
  unfold indexed
  have all : ∀ index ∈ List.range fields.length,
      ∃ value, Fields.get? fields (toString index) = some value :=
    fun index inRange => exists_get?_of_numbered h (List.mem_range.1 inRange)
  generalize List.range fields.length = indices at all
  induction indices with
  | nil => rfl
  | cons index rest ih =>
    obtain ⟨⟨value, here⟩, later⟩ := List.forall_mem_cons.1 all
    simp only [List.filterMap_cons, List.map_cons, here, ih later]

theorem length_indexed {fields : Fields Value} (h : fields.Numbered) :
    (indexed fields).length = fields.length := by
  simpa using congrArg List.length (indexed_eq_map h)

theorem getElem?_indexed {fields : Fields Value} (h : fields.Numbered) (index : Nat) :
    (indexed fields)[index]? =
      if index < fields.length then Fields.get? fields (toString index) else none := by
  by_cases inRange : index < fields.length
  · obtain ⟨value, held⟩ := exists_get?_of_numbered h inRange
    have place := congrArg (·[index]?) (indexed_eq_map h)
    simp only [List.getElem?_map, List.getElem?_range inRange, Option.map_some, held,
      Option.map_eq_some_iff, Option.some.injEq, exists_eq_right] at place
    rw [if_pos inRange, held, place]
  · rw [if_neg inRange, List.getElem?_eq_none]
    rw [length_indexed h]
    omega

end Shape

namespace Value

inductive Segment where
  | name (key : String)
  | place (index : Nat)
  deriving DecidableEq

abbrev Path := List Segment

def held? : Value → Segment → Option Value
  | .array items, .place index => items[index]?
  | .object fields, .name key => Fields.get? fields key
  | _, _ => none

def at? : Value → Path → Option Value
  | value, [] => some value
  | value, segment :: path => (value.held? segment).bind (·.at? path)

def Path.Spares (reserved : String) (path : Path) : Prop :=
  ∀ key, .name key ∈ path → ¬reserved.toList <+: key.toList

def Unnumbered (reserved : String) : Prop :=
  ∀ index : Nat, ¬reserved.toList <+: (toString index).toList

def numberBelow (bound : Nat) (key : String) : Nat := ((List.range bound).map toString).idxOf key

/-- How the segment is spelt when an object numbered like a list is one. -/
def listed : Value → Segment → Segment
  | .object fields, .name key =>
    if Fields.Numbered fields then .place (numberBelow fields.length key) else .name key
  | _, segment => segment

def listedPath : Value → Path → Path
  | _, [] => []
  | value, segment :: path =>
    value.listed segment ::
      match value.held? segment with
      | some inner => inner.listedPath path
      | none => path

/-- What becomes of a value above the cap, itself and not what it holds: a list keeps its length,
an object becomes a list or keeps all names that are not reserved in their order, and all else
stays. -/
def Reshaped (reserved : String) : Value → Value → Prop
  | .array items, shaped => ∃ others, shaped = .array others ∧ others.length = items.length
  | .object fields, shaped =>
    if Fields.Numbered fields then ∃ items, shaped = .array items ∧ items.length = fields.length
    else ∃ others, shaped = .object others ∧
      Fields.names others = (Fields.names fields).filter fun key => ¬reserved.toList <+: key.toList
  | leaf, shaped => shaped = leaf

end Value

/-! ### One step into a shaped value -/

namespace Shape

abbrev stripping (reserved : String) (cap : Nat) : Shape :=
  { reserved := some reserved, cap := some cap }

variable {reserved : String} {cap depth : Nat}

theorem keeps_stripping {key : String} :
    (stripping reserved cap).keeps key = decide (¬reserved.toList <+: key.toList) := by
  rw [Bool.eq_iff_iff]
  simp [keeps, ← List.isPrefixOf_iff_prefix]

theorem value_of_cap_le (le : cap ≤ depth) (value : Value) :
    (stripping reserved cap).value depth value = value := by
  have capped : (stripping reserved cap).isCapped depth = true := by simpa [isCapped] using le
  cases value with
  | array items => simp [Shape.value, capped]
  | object fields => simp [Shape.value, capped]
  | null | boolean | number | text => simp [Shape.value]

theorem value_array (lt : depth < cap) (items : List Value) :
    (stripping reserved cap).value depth (.array items) =
      .array (items.map ((stripping reserved cap).value (depth + 1))) := by
  have reached : (stripping reserved cap).isCapped depth = false := by simpa [isCapped] using lt
  simp [Shape.value, reached, items_eq_map]

theorem value_object (lt : depth < cap) (fields : List (String × Value)) :
    (stripping reserved cap).value depth (.object fields) =
      if Fields.Numbered fields then
        .array (indexed ((stripping reserved cap).fields (depth + 1) fields))
      else .object ((stripping reserved cap).strip
        ((stripping reserved cap).fields (depth + 1) fields)) := by
  have reached : (stripping reserved cap).isCapped depth = false := by simpa [isCapped] using lt
  simp [Shape.value, reached, container, isIndexed_fields, Fields.isIndexed_iff_numbered]

theorem get?_fields (shape : Shape) (fields : List (String × Value)) (key : String) :
    Fields.get? (shape.fields depth fields) key =
      (Fields.get? fields key).map (shape.value depth) := by
  rw [fields_eq_map]
  exact Fields.get?_map (shape.value depth) fields key

theorem numbered_fields (shape : Shape) {fields : List (String × Value)}
    (numbered : Fields.Numbered fields) : Fields.Numbered (shape.fields depth fields) := by
  rwa [← Fields.isIndexed_iff_numbered, isIndexed_fields, Fields.isIndexed_iff_numbered]

theorem get?_strip_fields (fields : List (String × Value)) (key : String) :
    Fields.get?
        ((stripping reserved cap).strip ((stripping reserved cap).fields depth fields)) key =
      if reserved.toList <+: key.toList then none
      else (Fields.get? fields key).map ((stripping reserved cap).value depth) := by
  unfold strip
  rw [Fields.get?_filter (stripping reserved cap).keeps, get?_fields, keeps_stripping]
  by_cases named : reserved.toList <+: key.toList
  · simp [named]
  · simp [named]

theorem names_strip_fields (fields : List (String × Value)) :
    Fields.names ((stripping reserved cap).strip ((stripping reserved cap).fields depth fields)) =
      (Fields.names fields).filter fun key => ¬reserved.toList <+: key.toList := by
  have kept : (fun field : String × Value => (stripping reserved cap).keeps field.1) =
      (fun key : String => decide (¬reserved.toList <+: key.toList)) ∘ Prod.fst := by
    funext field
    exact keeps_stripping
  rw [strip, Fields.names, kept, ← List.filter_map]
  exact congrArg _ (names_fields _ _ _)

end Shape

namespace Value

variable {reserved : String} {cap depth : Nat}

theorem numberBelow_toString {bound index : Nat} (lt : index < bound) :
    numberBelow bound (toString index) = index := by
  have inside : index < ((List.range bound).map toString).length := by simpa using lt
  have spelt : ((List.range bound).map toString)[index] = toString index := by simp
  unfold numberBelow
  rw [← spelt]
  exact (Shape.nodup_map_toString_range bound).idxOf_getElem index inside

theorem exists_of_numbered {fields : List (String × Value)} (numbered : Fields.Numbered fields)
    {key : String} {value : Value} (held : Fields.get? fields key = some value) :
    ∃ index < fields.length, key = toString index := by
  have member : key ∈ Fields.names fields := Fields.mem_names_iff.2 ⟨value, held⟩
  obtain ⟨index, inRange, rfl⟩ := List.mem_map.1 (numbered.2.mem_iff.1 member)
  exact ⟨index, List.mem_range.1 inRange, rfl⟩

theorem held?_value (lt : depth < cap) {value inner : Value} {segment : Segment}
    (held : value.held? segment = some inner) (spares : Path.Spares reserved [segment]) :
    ((Shape.stripping reserved cap).value depth value).held? (value.listed segment) =
      some ((Shape.stripping reserved cap).value (depth + 1) inner) := by
  cases value with
  | null | boolean | number | text => cases held
  | array items =>
    cases segment with
    | name => cases held
    | place index =>
      rw [held?] at held
      rw [Shape.value_array lt, listed, held?, List.getElem?_map, held]
      · rfl
      · exact fun _ _ same => nomatch same
  | object fields =>
    cases segment with
    | place => cases held
    | name key =>
      rw [held?] at held
      rw [Shape.value_object lt, listed]
      by_cases numbered : Fields.Numbered fields
      · obtain ⟨index, inRange, rfl⟩ := exists_of_numbered numbered held
        have shaped :
            Fields.Numbered ((Shape.stripping reserved cap).fields (depth + 1) fields) :=
          Shape.numbered_fields _ numbered
        rw [if_pos numbered, if_pos numbered, numberBelow_toString inRange, held?,
          Shape.getElem?_indexed shaped, if_pos (by simpa [Shape.fields_eq_map] using inRange),
          Shape.get?_fields, held]
        rfl
      · rw [if_neg numbered, if_neg numbered, held?, Shape.get?_strip_fields,
          if_neg (spares key List.mem_cons_self), held]
        rfl

theorem exists_of_held?_value (numbers : Unnumbered reserved) (lt : depth < cap)
    {value shaped : Value} {segment : Segment}
    (held : ((Shape.stripping reserved cap).value depth value).held? segment = some shaped) :
    ∃ before inner, value.held? before = some inner ∧ Path.Spares reserved [before] ∧
      value.listed before = segment ∧
      shaped = (Shape.stripping reserved cap).value (depth + 1) inner := by
  cases value with
  | null | boolean | number | text => simp [Shape.value, held?] at held
  | array items =>
    rw [Shape.value_array lt] at held
    cases segment with
    | name => cases held
    | place index =>
      rw [held?, List.getElem?_map] at held
      obtain ⟨inner, found, rfl⟩ := Option.map_eq_some_iff.1 held
      refine ⟨.place index, inner, found, ?_, rfl, rfl⟩
      intro key member
      cases List.mem_singleton.1 member
  | object fields =>
    rw [Shape.value_object lt] at held
    by_cases numbered : Fields.Numbered fields
    · have shapedFields :
          Fields.Numbered ((Shape.stripping reserved cap).fields (depth + 1) fields) :=
        Shape.numbered_fields _ numbered
      rw [if_pos numbered] at held
      cases segment with
      | name => cases held
      | place index =>
        rw [held?, Shape.getElem?_indexed shapedFields, Shape.get?_fields] at held
        by_cases inRange : index < fields.length
        · rw [if_pos (by simpa [Shape.fields_eq_map] using inRange)] at held
          obtain ⟨inner, found, rfl⟩ := Option.map_eq_some_iff.1 held
          refine ⟨.name (toString index), inner, found, ?_, ?_, rfl⟩
          · intro key member
            cases List.mem_singleton.1 member
            exact numbers index
          · rw [listed, if_pos numbered, numberBelow_toString inRange]
        · rw [if_neg (by simpa [Shape.fields_eq_map] using inRange)] at held
          cases held
    · rw [if_neg numbered] at held
      cases segment with
      | place => cases held
      | name key =>
        rw [held?, Shape.get?_strip_fields] at held
        by_cases named : reserved.toList <+: key.toList
        · rw [if_pos named] at held
          cases held
        · rw [if_neg named] at held
          obtain ⟨inner, found, rfl⟩ := Option.map_eq_some_iff.1 held
          refine ⟨.name key, inner, found, ?_, ?_, rfl⟩
          · intro other member
            cases List.mem_singleton.1 member
            exact named
          · rw [listed, if_neg numbered]

theorem reshaped_value (lt : depth < cap) (value : Value) :
    Reshaped reserved value ((Shape.stripping reserved cap).value depth value) := by
  cases value with
  | null | boolean | number | text => simp [Shape.value, Reshaped]
  | array items =>
    rw [Shape.value_array lt, Reshaped]
    exact ⟨_, rfl, List.length_map _⟩
  | object fields =>
    rw [Shape.value_object lt, Reshaped]
    by_cases numbered : Fields.Numbered fields
    · rw [if_pos numbered, if_pos numbered]
      refine ⟨_, rfl, ?_⟩
      rw [Shape.length_indexed (Shape.numbered_fields _ numbered), Shape.fields_eq_map,
        List.length_map]
    · rw [if_neg numbered, if_neg numbered]
      exact ⟨_, rfl, Shape.names_strip_fields fields⟩

/-! ### Along a path -/

theorem at?_cons_eq_some_iff {value inner : Value} {segment : Segment} {path : Path} :
    value.at? (segment :: path) = some inner ↔
      ∃ middle, value.held? segment = some middle ∧ middle.at? path = some inner :=
  Option.bind_eq_some_iff

theorem Path.spares_cons_iff {segment : Segment} {path : Path} :
    Path.Spares reserved (segment :: path) ↔
      Path.Spares reserved [segment] ∧ Path.Spares reserved path := by
  simp only [Path.Spares, List.mem_cons, List.not_mem_nil, or_false]
  grind

/-- By induction on the path: each step leads one container deeper on both sides. -/
theorem at?_value {path : Path} (spares : Path.Spares reserved path) {depth : Nat}
    (le : depth + path.length ≤ cap) {value inner : Value} (found : value.at? path = some inner) :
    ((Shape.stripping reserved cap).value depth value).at? (value.listedPath path) =
      some ((Shape.stripping reserved cap).value (depth + path.length) inner) := by
  induction path generalizing depth value with
  | nil =>
    cases found
    rfl
  | cons segment path ih =>
    obtain ⟨here, later⟩ := Path.spares_cons_iff.1 spares
    obtain ⟨middle, held, found⟩ := at?_cons_eq_some_iff.1 found
    rw [List.length_cons] at le ⊢
    have deeper : ((Shape.stripping reserved cap).value (depth + 1) middle).at?
        (middle.listedPath path) =
          some ((Shape.stripping reserved cap).value (depth + 1 + path.length) inner) :=
      ih later (by omega) found
    rw [listedPath, held, at?_cons_eq_some_iff]
    refine ⟨_, held?_value (by omega) held here, ?_⟩
    rw [deeper, Nat.add_assoc, Nat.add_comm 1]

theorem exists_of_at?_value (numbers : Unnumbered reserved) {path : Path} {depth : Nat}
    (le : depth + path.length ≤ cap) {value shaped : Value}
    (found : ((Shape.stripping reserved cap).value depth value).at? path = some shaped) :
    ∃ before inner, value.at? before = some inner ∧ Path.Spares reserved before ∧
      value.listedPath before = path ∧
      shaped = (Shape.stripping reserved cap).value (depth + path.length) inner := by
  induction path generalizing depth value with
  | nil =>
    cases found
    exact ⟨[], value, rfl, fun _ => nofun, rfl, rfl⟩
  | cons segment path ih =>
    rw [List.length_cons] at le
    obtain ⟨middle, held, found⟩ := at?_cons_eq_some_iff.1 found
    obtain ⟨first, between, entered, here, rfl, rfl⟩ :=
      exists_of_held?_value numbers (by omega) held
    obtain ⟨before, inner, reached, later, rfl, rfl⟩ := ih (by omega) found
    refine ⟨first :: before, inner, ?_, Path.spares_cons_iff.2 ⟨here, later⟩, ?_, ?_⟩
    · exact at?_cons_eq_some_iff.2 ⟨between, entered, reached⟩
    · rw [listedPath, entered]
    · rw [List.length_cons, Nat.add_assoc, Nat.add_comm 1]

end Value

/-! ### Rows -/

namespace Row

def listedPath (row : Row) : Value.Path → Value.Path
  | .name column :: path =>
    .name column ::
      match Fields.get? row column with
      | some value => value.listedPath path
      | none => path
  | path => path

/-- What is left of a row whose reserved names are dropped above the cap. The row is at depth 0,
and a value at the depth that its path is long. -/
structure Stripped (reserved : String) (cap : Nat) (row shaped : Row) : Prop where
  unreserved : ∀ (path : Value.Path) fields, path.length < cap →
    (Value.object shaped).at? path = some (.object fields) →
      ∀ key ∈ Fields.names fields, ¬reserved.toList <+: key.toList
  columns : Fields.names shaped =
    (Fields.names row).filter fun key => ¬reserved.toList <+: key.toList
  reshaped : ∀ (path : Value.Path) value, 0 < path.length → path.length < cap →
    path.Spares reserved → (Value.object row).at? path = some value →
      ∃ found, (Value.object shaped).at? (row.listedPath path) = some found ∧
        value.Reshaped reserved found
  whole : ∀ (path : Value.Path) value, path.length = cap → path.Spares reserved →
    (Value.object row).at? path = some value →
      (Value.object shaped).at? (row.listedPath path) = some value
  only : ∀ (path : Value.Path) found, path.length ≤ cap →
    (Value.object shaped).at? path = some found →
      ∃ before value, (Value.object row).at? before = some value ∧ before.Spares reserved ∧
        row.listedPath before = path ∧ (path.length = cap → found = value)

variable {reserved : String} {cap : Nat}

theorem at?_row {path : Value.Path} (spares : path.Spares reserved) (entered : 0 < path.length)
    (le : path.length ≤ cap) {row : Row} {value : Value}
    (found : (Value.object row).at? path = some value) :
    (Value.object ((Shape.stripping reserved cap).row row)).at? (row.listedPath path) =
      some ((Shape.stripping reserved cap).value path.length value) := by
  cases path with
  | nil => cases entered
  | cons segment path =>
    obtain ⟨here, later⟩ := Value.Path.spares_cons_iff.1 spares
    obtain ⟨middle, held, inside⟩ := Value.at?_cons_eq_some_iff.1 found
    cases segment with
    | place => cases held
    | name column =>
      rw [Value.held?] at held
      rw [List.length_cons] at le ⊢
      rw [listedPath, held, Value.at?_cons_eq_some_iff]
      refine ⟨(Shape.stripping reserved cap).value 1 middle, ?_, ?_⟩
      · rw [Value.held?, Shape.row, Shape.get?_strip_fields,
          if_neg (here column List.mem_cons_self), held]
        rfl
      · rw [Nat.add_comm]
        exact Value.at?_value later (by omega) inside

theorem exists_of_at?_row (numbers : Value.Unnumbered reserved) {path : Value.Path}
    (entered : 0 < path.length) (le : path.length ≤ cap) {row : Row} {shaped : Value}
    (found : (Value.object ((Shape.stripping reserved cap).row row)).at? path = some shaped) :
    ∃ before value, (Value.object row).at? before = some value ∧ before.Spares reserved ∧
      row.listedPath before = path ∧
      shaped = (Shape.stripping reserved cap).value path.length value := by
  cases path with
  | nil => cases entered
  | cons segment path =>
    obtain ⟨middle, held, found⟩ := Value.at?_cons_eq_some_iff.1 found
    cases segment with
    | place => cases held
    | name column =>
      rw [List.length_cons] at le
      rw [Value.held?, Shape.row, Shape.get?_strip_fields] at held
      by_cases named : reserved.toList <+: column.toList
      · rw [if_pos named] at held
        cases held
      rw [if_neg named] at held
      obtain ⟨between, inColumn, rfl⟩ := Option.map_eq_some_iff.1 held
      obtain ⟨before, value, reached, later, rfl, rfl⟩ :=
        Value.exists_of_at?_value numbers (by omega) found
      refine ⟨.name column :: before, value, ?_, ?_, ?_, ?_⟩
      · exact Value.at?_cons_eq_some_iff.2 ⟨between, inColumn, reached⟩
      · refine Value.Path.spares_cons_iff.2 ⟨?_, later⟩
        intro key member
        cases List.mem_singleton.1 member
        exact named
      · rw [listedPath, inColumn]
      · rw [List.length_cons, Nat.add_comm]

theorem unreserved_of_at?_row
    (numbers : Value.Unnumbered reserved) {path : Value.Path} (lt : path.length < cap)
    {row : Row} {fields : List (String × Value)}
    (found : (Value.object ((Shape.stripping reserved cap).row row)).at? path =
      some (.object fields)) :
    ∀ key ∈ Fields.names fields, ¬reserved.toList <+: key.toList := by
  have kept {depth : Nat} {others : List (String × Value)} : ∀ key ∈ Fields.names
      ((Shape.stripping reserved cap).strip ((Shape.stripping reserved cap).fields depth others)),
      ¬reserved.toList <+: key.toList := by
    intro key member
    rw [Shape.names_strip_fields] at member
    simpa using (List.mem_filter.1 member).2
  rcases Nat.eq_zero_or_pos path.length with root | entered
  · obtain rfl := List.length_eq_zero_iff.1 root
    cases found
    exact kept
  · obtain ⟨before, value, reached, spares, rfl, same⟩ :=
      exists_of_at?_row numbers entered (Nat.le_of_lt lt) found
    have reshaped :
        Value.Reshaped reserved value ((Shape.stripping reserved cap).value _ value) :=
      Value.reshaped_value lt value
    rw [← same] at reshaped
    cases value with
    | null | boolean | number | text => cases reshaped
    | array items =>
      obtain ⟨_, other, _⟩ := reshaped
      cases other
    | object others =>
      rw [Shape.value_object lt] at same
      split at same
      · cases same
      · cases same
        exact kept

theorem stripped_row (numbers : Value.Unnumbered reserved) (reach : 1 ≤ cap) (row : Row) :
    Stripped reserved cap row ((Shape.stripping reserved cap).row row) where
  unreserved path fields lt found := unreserved_of_at?_row numbers lt found
  columns := Shape.names_strip_fields row
  reshaped path value entered lt spares found :=
    ⟨_, at?_row spares entered (Nat.le_of_lt lt) found, Value.reshaped_value lt value⟩
  whole path value length spares found := by
    rw [at?_row spares (by omega) (by omega) found, Shape.value_of_cap_le (by omega)]
  only path found le reached := by
    rcases Nat.eq_zero_or_pos path.length with root | entered
    · obtain rfl := List.length_eq_zero_iff.1 root
      refine ⟨[], .object row, rfl, fun _ => nofun, rfl, ?_⟩
      intro length
      rw [List.length_nil] at length
      omega
    · obtain ⟨before, value, inside, spares, rfl, rfl⟩ :=
        exists_of_at?_row numbers entered le reached
      refine ⟨before, value, inside, spares, rfl, ?_⟩
      intro length
      exact Shape.value_of_cap_le (by omega) value

end Row

theorem Identifier.not_isDigit_of_isAlpha {c : Char} (letter : c.isAlpha) : ¬c.isDigit := by
  intro digit
  have most : c.toNat ≤ '9'.toNat := (Char.isDigit_iff_toNat.1 digit).2
  rcases Bool.or_eq_true_iff.1 letter with upper | lower
  · have least : 'A'.val ≤ c.val := (of_decide_eq_true upper).1
    exact absurd (Nat.le_trans (UInt32.le_iff_toNat_le.1 least) most) (by decide)
  · have least : 'a'.val ≤ c.val := of_decide_eq_true (Bool.and_eq_true_iff.1 lower).1
    exact absurd (Nat.le_trans (UInt32.le_iff_toNat_le.1 least) most) (by decide)

theorem Identifier.unnumbered {kind : Kind} {name : String}
    (checked : check kind name.toList = .ok ()) : Value.Unnumbered name := by
  obtain ⟨first, more, parts⟩ := List.exists_cons_of_ne_nil (List.splitOn_ne_nil '.' name.toList)
  have word : isWord first :=
    Expression.isWord_of_check checked first (by simp [Identifier.parts, parts])
  have whole : ['.'].intercalate (name.toList.splitOn '.') = name.toList :=
    List.intercalate_splitOn '.'
  intro index numeric
  cases first with
  | nil => cases word
  | cons c cs =>
    have start : isStart c := by
      rw [isWord, Bool.and_eq_true] at word
      exact word.1
    have member : c ∈ name.toList := by
      rw [← whole, parts]
      exact Text.mem_intercalate_of_mem List.mem_cons_self List.mem_cons_self
    have digit : c.isDigit := by
      have inside : c ∈ Nat.toDigits 10 index := by
        simpa [Nat.toString_eq_ofList_toDigits] using numeric.subset member
      exact Nat.isDigit_of_mem_toDigits (by omega) (by omega) inside
    simp only [isStart, Bool.or_eq_true, beq_iff_eq] at start
    rcases start with letter | rfl
    · exact not_isDigit_of_isAlpha letter digit
    · cases digit

/-- For every prefix that is an identifier and every cap of at least one, row by row in their order:
above the cap the rows of a result hold just what is reached without a reserved name, and what
stands as deep as the cap is as it was. -/
theorem Result.stripped_ofRows (config : Config) {kind : Identifier.Kind}
    (valid : Identifier.check kind config.correlationPrefix.toList = .ok ())
    (reach : 1 ≤ config.maxResultDepth) (rows : List Row) (total : Option Nat) :
    List.Forall₂ (Row.Stripped config.correlationPrefix config.maxResultDepth) rows
      (Result.ofRows config rows total).rows := by
  rw [ofRows, List.forall₂_map_right_iff, List.forall₂_same]
  intro row member
  exact Row.stripped_row (Identifier.unnumbered valid) reach row

theorem Result.profile_stripped_ofRows :
    let config : Config := { maxResultDepth := 2 }
    let row : Row := [("__rq_id", .text "u1"), ("profile", .object [("__rq_owner", .text "u1"),
      ("pages", .object [("0", .text "a"), ("__rq_page", .text "b")])]),
      ("tags", .object [("0", .text "a"), ("1", .text "b")])]
    Identifier.check .table config.correlationPrefix.toList = .ok () ∧ 1 ≤ config.maxResultDepth ∧
      (ofRows config [row] none).rows = [[
        ("profile", .object [
          ("pages", .object [("0", .text "a"), ("__rq_page", .text "b")])]),
        ("tags", .array [.text "a", .text "b"])]] ∧
      List.Forall₂ (Row.Stripped config.correlationPrefix config.maxResultDepth) [row]
        (ofRows config [row] none).rows := by
  intro config row
  have valid : Identifier.check .table config.correlationPrefix.toList = .ok () := by decide
  have reach : 1 ≤ config.maxResultDepth := by decide
  exact ⟨valid, reach, by cbv, stripped_ofRows config valid reach [row] none⟩

end RelationQuery
